import Mathlib.Data.Finset.Card
import Mathlib.Data.Finset.Dedup
import Stencil.Proofs.Cache.Run

/-! The counts of a cache, over all that happens to it. Every request whose path can be resolved is
a hit or a miss, every miss compiles, and each template that was compiled is still there or was
given up. -/
namespace Stencil

namespace Event

def isRequest (e : Event) : Bool := e.asked?.isSome

def isRemoval : Event → Bool
  | invalidate _ | clear => true
  | _ => false

theorem countP_isRequest_cons (e : Event) (rest : List Event) :
    (e :: rest).countP isRequest = e.isRequest.toNat + rest.countP isRequest := by
  rw [List.countP_cons, Nat.add_comm]
  cases e.isRequest <;> rfl

end Event

def Answer.isFailure : Answer → Bool
  | template (.error _) | text (.error (.load _)) => true
  | _ => false

namespace Cache

def paths (c : Cache) : Finset Path := (c.templates.map Prod.fst).toFinset

theorem mem_paths_iff {c : Cache} {key : Path} : key ∈ c.paths ↔ (c.stored? key).isSome = true := by
  rw [paths, stored?, List.mem_toFinset, List.mem_map, List.lookup_isSome_iff]
  exact exists_congr fun entry => and_congr_right fun _ => by rw [beq_iff_eq, eq_comm]

end Cache

namespace World

/-- The sum of an amount over all that happens, each event seen from where it happens. -/
def tally (amount : World → Event → Nat) (w : World) : List Event → Nat
  | [] => 0
  | e :: rest => amount w e + tally amount (w.step e).2 rest

def isStray (w : World) (e : Event) : Bool :=
  match e.asked? with
  | some written => (w.cache.resolve w.files written).toOption.isNone
  | none => false

def strays (w : World) (e : Event) : Nat := (w.isStray e).toNat

def failures (w : World) (e : Event) : Nat :=
  (e.isRequest && !w.isStray e && (w.step e).1.isFailure).toNat

def removals (w : World) (e : Event) : Nat :=
  if e.isRemoval then (w.cache.paths \ (w.step e).2.cache.paths).card else 0

end World

namespace Cache
variable {compile : Compiler} {c : Cache}

/-- What the counts of a cache in production say of the past: so many requests, so many of them
astray, so many in vain, and so many templates given up. -/
structure Balance (c : Cache) (requests strays failures removals : Nat) : Prop where
  production : c.development = false
  distinct : (c.templates.map Prod.fst).Nodup
  requested : c.hits + c.misses + strays = requests
  compiled : c.compilations = c.misses
  kept : c.misses = failures + removals + c.paths.card

namespace Balance
variable {requests strays failures removals : Nat}

theorem size (b : Balance c requests strays failures removals) : c.size = c.paths.card := by
  rw [paths, List.toFinset_card_of_nodup b.distinct, List.length_map]
  rfl

theorem astray (b : Balance c requests strays failures removals) :
    Balance c (requests + 1) (strays + 1) failures removals :=
  { b with requested := congrArg (· + 1) b.requested }

/-- A request counts once, and fails or not. -/
theorem fetch (b : Balance c requests strays failures removals) (compile : Compiler) (key : Path) :
    Balance (c.fetch compile key).2 (requests + 1) strays
      (failures + (c.fetch compile key).1.toOption.isNone.toNat) removals := by
  obtain ⟨production, distinct, requested, compiled, kept⟩ := b
  rcases fetch_cases production compile key with
    ⟨t, -, hit⟩ | ⟨absent, ⟨t, -, stored⟩ | ⟨fault, -, failed⟩⟩
  · rw [hit]
    exact ⟨production, distinct, by dsimp only; omega, compiled, kept⟩
  · rw [stored]
    have fresh : key ∉ c.paths := by
      rw [mem_paths_iff, absent]
      exact Bool.false_ne_true
    have more : ((key :: c.templates.map Prod.fst).toFinset).card = c.paths.card + 1 := by
      rw [List.toFinset_cons]
      exact Finset.card_insert_of_notMem fresh
    refine ⟨production, ?_, by dsimp only; omega, congrArg (· + 1) compiled, ?_⟩
    · rw [List.map_cons, List.nodup_cons]
      exact ⟨fun member => fresh (List.mem_toFinset.2 member), distinct⟩
    · change c.misses + 1 =
        failures + 0 + removals + ((key :: c.templates.map Prod.fst).toFinset).card
      omega
  · rw [failed]
    refine ⟨production, distinct, by dsimp only; omega, congrArg (· + 1) compiled, ?_⟩
    change c.misses + 1 = failures + 1 + removals + c.paths.card
    omega

/-- Paths that are given up move from one side of the account to the other. -/
theorem remove {c' : Cache} (b : Balance c requests strays failures removals)
    (same : c'.development = c.development) (hits : c'.hits = c.hits)
    (misses : c'.misses = c.misses) (compilations : c'.compilations = c.compilations)
    (fewer : c'.templates.Sublist c.templates) :
    Balance c' requests strays failures (removals + (c.paths \ c'.paths).card) := by
  obtain ⟨production, distinct, requested, compiled, kept⟩ := b
  have inside : c'.paths ⊆ c.paths := fun key member =>
    List.mem_toFinset.2 ((fewer.map Prod.fst).subset (List.mem_toFinset.1 member))
  have parts := Finset.card_sdiff_add_card_eq_card inside
  refine ⟨same.trans production, (fewer.map Prod.fst).nodup distinct, ?_, ?_, ?_⟩
  · rw [hits, misses, requested]
  · rw [compilations, misses, compiled]
  · rw [misses]
    omega

theorem drop (b : Balance c requests strays failures removals) (key : Path) :
    Balance (c.drop key).2 requests strays failures
      (removals + (c.paths \ (c.drop key).2.paths).card) := by
  unfold Cache.drop
  split
  · exact b.remove rfl rfl rfl rfl List.filter_sublist
  · exact b.remove rfl rfl rfl rfl (.refl _)

end Balance

structure Idle (c : Cache) (requests strays : Nat) : Prop where
  development : c.development = true
  templates : c.templates = []
  locks : c.locks = []
  hits : c.hits = 0
  misses : c.misses = 0
  requested : c.compilations + strays = requests

namespace Idle
variable {requests strays : Nat}

theorem astray (idle : Idle c requests strays) : Idle c (requests + 1) (strays + 1) :=
  { idle with requested := congrArg (· + 1) idle.requested }

theorem fetch (idle : Idle c requests strays) (compile : Compiler) (key : Path) :
    Idle (c.fetch compile key).2 (requests + 1) strays := by
  obtain ⟨development, templates, locks, hits, misses, requested⟩ := idle
  rw [Cache.fetch, if_pos development]
  exact ⟨development, templates, locks, hits, misses, by dsimp only; omega⟩

theorem drop (idle : Idle c requests strays) (key : Path) : c.drop key = (false, c) := by
  rw [Cache.drop, idle.locks]
  rfl

/-- Nothing is there to be invalidated. -/
theorem invalidate (idle : Idle c requests strays) (files : File.Tree) (written : String) :
    c.invalidate files written = ((c.resolve files written).map fun _ => false, c) := by
  unfold Cache.invalidate
  cases c.resolve files written with
  | error fault => rfl
  | ok key =>
    dsimp only
    rw [idle.drop]
    rfl

end Idle

end Cache

theorem Event.isFailure_answer {e : Event} {written : String} (asked : e.asked? = some written)
    (found : Except LoadFault Template) : (e.answer found).isFailure = found.toOption.isNone := by
  cases e with
  | get => cases found <;> rfl
  | render g written data named =>
    cases found with
    | error fault => rfl
    | ok t =>
      dsimp only [answer, Cache.rendered]
      cases t.render g data named <;> rfl
  | _ => cases asked

namespace World
open Cache (Balance Idle)
variable {w : World} {e : Event} {requests astray failed removed : Nat}

section Asked
variable {written : String} (asked : e.asked? = some written)
include asked

/-- A request by a path that cannot be resolved is one astray, and the cache stays as it is. -/
theorem astray_of_fault {fault : PathFault}
    (meant : w.cache.resolve w.files written = .error fault) :
    w.isStray e = true ∧ (w.step e).2 = w := by
  rw [isStray, asked, step_of_asked asked, Cache.get_of_fault meant]
  exact ⟨congrArg (Option.isNone ∘ Except.toOption) meant, rfl⟩

theorem fetch_of_resolve {key : Path} (meant : w.cache.resolve w.files written = .ok key) :
    w.isStray e = false ∧ w.step e = (e.answer (w.cache.fetch (Template.compile w.files) key).1,
      { w with cache := (w.cache.fetch (Template.compile w.files) key).2 }) := by
  rw [isStray, asked, step_of_asked asked, Cache.get_of_resolve meant]
  exact ⟨congrArg (Option.isNone ∘ Except.toOption) meant, rfl⟩

theorem isRemoval_of_asked : e.isRemoval = false := by
  cases e with
  | get | render => rfl
  | _ => cases asked

end Asked

theorem balance_step (b : Balance w.cache requests astray failed removed) (e : Event) :
    Balance (w.step e).2.cache (requests + e.isRequest.toNat) (astray + w.strays e)
      (failed + w.failures e) (removed + w.removals e) := by
  cases asked : e.asked? with
  | some written =>
    have request : e.isRequest = true := by rw [Event.isRequest, asked]; rfl
    have kept : w.removals e = 0 :=
      if_neg (by rw [isRemoval_of_asked asked]; exact Bool.false_ne_true)
    rw [strays, failures, request, kept]
    cases meant : w.cache.resolve w.files written with
    | error fault =>
      obtain ⟨stray, same⟩ := astray_of_fault asked meant
      rw [stray, same]
      exact b.astray
    | ok key =>
      obtain ⟨counted, fetched⟩ := fetch_of_resolve asked meant
      rw [counted, fetched, Event.isFailure_answer asked]
      exact b.fetch (Template.compile w.files) key
  | none =>
    have no_request : e.isRequest = false := by rw [Event.isRequest, asked]; rfl
    have no_stray : w.isStray e = false := by rw [isStray, asked]
    rw [strays, failures, no_request, no_stray]
    cases e with
    | invalidate written =>
      dsimp only [removals, step, Cache.invalidate]
      cases w.cache.resolve w.files written with
      | error fault => exact b.remove rfl rfl rfl rfl (.refl _)
      | ok key => exact b.drop key
    | clear => exact b.remove rfl rfl rfl rfl (List.nil_sublist _)
    | edit | isCached | compile => exact b
    | get | render => cases asked

theorem balance_run (b : Balance w.cache requests astray failed removed) (events : List Event) :
    Balance (w.run events).2.cache (requests + events.countP Event.isRequest)
      (astray + w.tally strays events) (failed + w.tally failures events)
      (removed + w.tally removals events) := by
  induction events generalizing w requests astray failed removed with
  | nil => exact b
  | cons e rest ih =>
    rw [Event.countP_isRequest_cons, tally, tally, tally, ← Nat.add_assoc, ← Nat.add_assoc,
      ← Nat.add_assoc, ← Nat.add_assoc]
    exact ih (balance_step b e)

theorem idle_step (idle : Idle w.cache requests astray) (e : Event) :
    Idle (w.step e).2.cache (requests + e.isRequest.toNat) (astray + w.strays e) := by
  cases asked : e.asked? with
  | some written =>
    have request : e.isRequest = true := by rw [Event.isRequest, asked]; rfl
    rw [strays, request]
    cases meant : w.cache.resolve w.files written with
    | error fault =>
      obtain ⟨stray, same⟩ := astray_of_fault asked meant
      rw [stray, same]
      exact idle.astray
    | ok key =>
      obtain ⟨counted, fetched⟩ := fetch_of_resolve asked meant
      rw [counted, fetched]
      exact idle.fetch (Template.compile w.files) key
  | none =>
    have no_request : e.isRequest = false := by rw [Event.isRequest, asked]; rfl
    have no_stray : w.isStray e = false := by rw [isStray, asked]
    rw [strays, no_request, no_stray]
    cases e with
    | invalidate written =>
      dsimp only [step]
      rw [idle.invalidate]
      exact idle
    | clear => exact { idle with templates := rfl }
    | edit | isCached | compile => exact idle
    | get | render => cases asked

theorem idle_run (idle : Idle w.cache requests astray) (events : List Event) :
    Idle (w.run events).2.cache (requests + events.countP Event.isRequest)
      (astray + w.tally strays events) := by
  induction events generalizing w requests astray with
  | nil => exact idle
  | cons e rest ih =>
    rw [Event.countP_isRequest_cons, tally, ← Nat.add_assoc, ← Nat.add_assoc]
    exact ih (idle_step idle e)

/-- In production all requests but those by paths that cannot be resolved are hits or misses, all
misses compile, and what was compiled with success was given up or is stored. In development all
these requests compile, and nothing else is ever counted or stored. -/
theorem counters_run (base : File.Base) (files : File.Tree) (events : List Event) :
    let production := start false base files
    let development := start true base files
    let c := (production.run events).2.cache
    let d := (development.run events).2
    (c.hits + c.misses + production.tally strays events = events.countP Event.isRequest ∧
      c.compilations = c.misses ∧
      c.misses = production.tally failures events + production.tally removals events + c.size ∧
      c.size = c.paths.card ∧ ∀ key, key ∈ c.paths ↔ (c.stored? key).isSome = true) ∧
    d.cache.hits = 0 ∧ d.cache.misses = 0 ∧ d.cache.size = 0 ∧
      d.cache.compilations + development.tally strays events = events.countP Event.isRequest ∧
      ∀ written, (d.step (.invalidate written)).1 =
        .flag ((d.cache.resolve d.files written).map fun _ => false) := by
  intro production development c d
  have balance : Balance production.cache 0 0 0 0 := ⟨rfl, List.nodup_nil, rfl, rfl, rfl⟩
  have idle : Idle development.cache 0 0 := ⟨rfl, rfl, rfl, rfl, rfl, rfl⟩
  have after := balance_run balance events
  have rest := idle_run idle events
  rw [Nat.zero_add, Nat.zero_add] at after rest
  refine ⟨⟨after.requested, after.compiled, ?_, after.size, fun key => Cache.mem_paths_iff⟩,
    rest.hits, rest.misses, congrArg List.length rest.templates, rest.requested, fun written => ?_⟩
  · rw [after.size, after.kept, Nat.zero_add, Nat.zero_add]
  · dsimp only [step]
    rw [rest.invalidate]

/-- A path with a null byte in it is asked for and never counted, in production and in
development. -/
theorem counters_of_null :
    let events : List Event := [.get "a\x00b"]
    let c := ((start false ⟨.top, ""⟩ .empty).run events).2.cache
    let d := ((start true ⟨.top, ""⟩ .empty).run events).2.cache
    events.countP Event.isRequest = 1 ∧ c.hits + c.misses = 0 ∧ d.compilations = 0 := by
  decide +kernel

end World
end Stencil
