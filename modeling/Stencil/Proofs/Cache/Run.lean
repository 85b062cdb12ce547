import Stencil.Cache

/-! A cache in use: what happens one after another, what is answered to it, and what the cache holds
then. -/
namespace Stencil

inductive Event where
  /-- From here on the files are these. -/
  | edit (files : File.Tree)
  | get (written : String)
  | render (g : Globals) (written : String) (data : Option Host) (named : List (String × Host))
  | isCached (written : String)
  | invalidate (written : String)
  | clear
  /-- Compiles a text that is in no file. -/
  | compile (source : String)

inductive Answer where
  | done
  | template (outcome : Except LoadFault Template)
  | text (outcome : Except Failure String)
  | flag (outcome : Except PathFault Bool)

namespace Event

def asked? : Event → Option String
  | get written | render _ written _ _ => some written
  | _ => none

def filesAfter (files : File.Tree) : Event → File.Tree
  | edit files => files
  | _ => files

end Event

/-- An event, and the files that it meets. -/
structure Occasion where
  files : File.Tree
  event : Event

def occasions (files : File.Tree) : List Event → List Occasion
  | [] => []
  | e :: rest => ⟨files, e⟩ :: occasions (e.filesAfter files) rest

def filesAfter (files : File.Tree) (events : List Event) : File.Tree :=
  events.foldl Event.filesAfter files

namespace Occasion

def Asks (base : File.Base) (key : Path) (o : Occasion) : Prop :=
  ∃ written, o.event.asked? = some written ∧ o.files.resolve base written = .ok key

def Drops (base : File.Base) (key : Path) : Occasion → Prop
  | ⟨files, .invalidate written⟩ => files.resolve base written = .ok key
  | ⟨_, .clear⟩ => True
  | _ => False

theorem Asks.not_drops {base : File.Base} {key : Path} {o : Occasion} (h : o.Asks base key) :
    ¬o.Drops base key := by
  obtain ⟨files, e⟩ := o
  obtain ⟨written, asked, -⟩ := h
  cases e with
  | get | render => exact not_false
  | _ => cases asked

theorem Asks.filesAfter {base : File.Base} {key : Path} {o : Occasion} (h : o.Asks base key) :
    o.event.filesAfter o.files = o.files := by
  obtain ⟨files, e⟩ := o
  obtain ⟨written, asked, -⟩ := h
  cases e with
  | edit => cases asked
  | _ => rfl

end Occasion

@[simp] theorem occasions_append (files : File.Tree) (u v : List Event) :
    occasions files (u ++ v) = occasions files u ++ occasions (filesAfter files u) v := by
  induction u generalizing files with
  | nil => rfl
  | cons e u ih => exact congrArg (List.cons _) (ih _)

theorem occasions_snoc (files : File.Tree) (events : List Event) (e : Event) :
    occasions files (events ++ [e]) = occasions files events ++ [⟨filesAfter files events, e⟩] :=
  occasions_append files events [e]

structure World where
  files : File.Tree
  cache : Cache

namespace World

def start (development : Bool) (base : File.Base) (files : File.Tree) : World :=
  ⟨files, .empty development base⟩

def step (w : World) : Event → Answer × World
  | .edit files => (.done, { w with files := files })
  | .get written =>
    let found := w.cache.get w.files (Template.compile w.files) written
    (.template found.1, { w with cache := found.2 })
  | .render g written data named =>
    let rendered := w.cache.render w.files (Template.compile w.files) g written data named
    (.text rendered.1, { w with cache := rendered.2 })
  | .isCached written => (.flag (w.cache.isCached w.files written), w)
  | .invalidate written =>
    let dropped := w.cache.invalidate w.files written
    (.flag dropped.1, { w with cache := dropped.2 })
  | .clear => (.done, { w with cache := w.cache.clear })
  | .compile source => (.template (Template.ofSource source), w)

def run (w : World) : List Event → List Answer × World
  | [] => ([], w)
  | e :: rest =>
    let others := run (w.step e).2 rest
    ((w.step e).1 :: others.1, others.2)

theorem run_cons (w : World) (e : Event) (rest : List Event) :
    w.run (e :: rest) = ((w.step e).1 :: ((w.step e).2.run rest).1, ((w.step e).2.run rest).2) :=
  rfl

end World

def Cache.rendered (g : Globals) (data : Option Host) (named : List (String × Host)) :
    Except LoadFault Template → Except Failure String
  | .error fault => .error (.load fault)
  | .ok t =>
    match t.render g data named with
    | .ok text => .ok text
    | .error fault => .error (.render fault)

def Event.answer (found : Except LoadFault Template) : Event → Answer
  | render g _ data named => .text (Cache.rendered g data named found)
  | _ => .template found

namespace Cache
variable {compile : Compiler} {c : Cache}

def stored? (c : Cache) (key : Path) : Option Template := c.templates.lookup key

def find (compile : Compiler) (c : Cache) (key : Path) : Except LoadFault Template :=
  match c.stored? key with
  | some t => .ok t
  | none => compile key

/-- Only what has a lock is dropped when it is invalidated, so that all that is stored must have
one. -/
def Locked (c : Cache) : Prop := ∀ key t, c.stored? key = some t → key ∈ c.locks

theorem lookup_cons (templates : List (Path × Template)) (key other : Path) (t : Template) :
    ((key, t) :: templates).lookup other =
      if other = key then some t else templates.lookup other := by
  by_cases same : other = key
  · simp [same]
  · have apart : (other == key) = false := by simpa using same
    simp [List.lookup_cons, same, apart]

theorem lookup_filter (templates : List (Path × Template)) (key other : Path) :
    (templates.filter fun entry => entry.1 != key).lookup other =
      if other = key then none else templates.lookup other := by
  induction templates with
  | nil => simp
  | cons entry rest ih =>
    obtain ⟨k, t⟩ := entry
    by_cases dropped : k = key
    · subst dropped
      rw [List.filter_cons_of_neg (by simp), ih, lookup_cons]
      split <;> rfl
    · rw [List.filter_cons_of_pos (by simpa using dropped), lookup_cons, lookup_cons, ih]
      by_cases same : other = k
      · rw [if_pos same, if_pos same, if_neg (same ▸ dropped)]
      · rw [if_neg same, if_neg same]

section Resolve
variable {files : File.Tree} {written : String}

theorem get_of_resolve {key : Path} (h : files.resolve c.base written = .ok key) :
    c.get files compile written = c.fetch compile key := by
  rw [get, resolve, h]

theorem get_of_fault {fault : PathFault} (h : files.resolve c.base written = .error fault) :
    c.get files compile written = (.error (.unresolvable fault), c) := by
  rw [get, resolve, h]

theorem invalidate_of_resolve {key : Path} (h : files.resolve c.base written = .ok key) :
    c.invalidate files written = (.ok (c.drop key).1, (c.drop key).2) := by
  rw [invalidate, resolve, h]
  rfl

theorem invalidate_of_fault {fault : PathFault} (h : files.resolve c.base written = .error fault) :
    c.invalidate files written = (.error fault, c) := by
  rw [invalidate, resolve, h]

end Resolve

/-- What a request leaves of the mode and of the place. -/
theorem fetch_frame (compile : Compiler) (c : Cache) (key : Path) :
    (fetch compile c key).2.development = c.development ∧
    (fetch compile c key).2.base = c.base := by
  unfold fetch miss
  dsimp only
  repeat' split
  all_goals exact ⟨rfl, rfl⟩

theorem fetch_development (h : c.development = true) (key : Path) :
    (fetch compile c key).1 = compile key := by
  unfold fetch
  rw [if_pos h]

/-- A request is a hit, or it stores what it compiles, or it fails and stores nothing. -/
theorem fetch_cases (h : c.development = false) (compile : Compiler) (key : Path) :
    (∃ t, c.stored? key = some t ∧
      c.fetch compile key = (.ok t, { c with hits := c.hits + 1 })) ∨
    c.stored? key = none ∧
      ((∃ t, compile key = .ok t ∧ c.fetch compile key = (.ok t,
          { c with
            misses := c.misses + 1, compilations := c.compilations + 1
            templates := (key, t) :: c.templates
            locks := c.locks.insert key })) ∨
        ∃ fault, compile key = .error fault ∧ c.fetch compile key = (.error fault,
          { c with
            misses := c.misses + 1, compilations := c.compilations + 1
            locks := c.locks.erase key })) := by
  unfold fetch stored?
  rw [if_neg (by simp [h])]
  cases c.templates.lookup key with
  | some t => exact .inl ⟨t, rfl, rfl⟩
  | none =>
    dsimp only [miss]
    cases compile key with
    | ok t => exact .inr ⟨rfl, .inl ⟨t, rfl, rfl⟩⟩
    | error fault => exact .inr ⟨rfl, .inr ⟨fault, rfl, rfl⟩⟩

section Production
variable (h : c.development = false) (key : Path)
include h

theorem fetch_fst : (fetch compile c key).1 = c.find compile key := by
  rcases fetch_cases h compile key with ⟨t, found, hit⟩ |
    ⟨absent, ⟨t, loaded, kept⟩ | ⟨fault, loaded, failed⟩⟩
  · rw [hit, find, found]
  · rw [kept, find, absent, loaded]
  · rw [failed, find, absent, loaded]

/-- A request stores what it finds. If there is nothing to be found, all stays as it was. -/
theorem stored?_fetch (other : Path) :
    (fetch compile c key).2.stored? other =
      if other = key then (c.find compile key).toOption else c.stored? other := by
  have unchanged {found : Option Template} (same : c.stored? key = found) :
      c.stored? other = if other = key then found else c.stored? other := by
    split
    · rename_i this
      rw [this, same]
    · rfl
  rcases fetch_cases h compile key with ⟨t, found, hit⟩ |
    ⟨absent, ⟨t, loaded, kept⟩ | ⟨fault, loaded, failed⟩⟩
  · rw [hit, find, found]
    exact unchanged found
  · rw [kept, find, absent, loaded]
    exact lookup_cons c.templates key other t
  · rw [failed, find, absent, loaded]
    exact unchanged absent

theorem Locked.fetch (locked : c.Locked) : (fetch compile c key).2.Locked := by
  intro other t stored
  rcases fetch_cases h compile key with
    ⟨_, -, hit⟩ | ⟨absent, ⟨t', -, kept⟩ | ⟨fault, -, failed⟩⟩
  · rw [hit] at stored ⊢
    exact locked other t stored
  · rw [kept, stored?, lookup_cons] at stored
    rw [kept, List.mem_insert_iff]
    by_cases same : other = key
    · exact .inl same
    · rw [if_neg same] at stored
      exact .inr (locked other t stored)
  · -- the lock that goes is of a path that is not stored
    rw [failed] at stored ⊢
    have apart : other ≠ key := by
      rintro rfl
      cases absent.symm.trans stored
    exact (List.mem_erase_of_ne apart).2 (locked other t stored)

end Production

theorem render_eq (files : File.Tree) (compile : Compiler) (g : Globals) (c : Cache)
    (written : String) (data : Option Host) (named : List (String × Host)) :
    c.render files compile g written data named =
      (rendered g data named (c.get files compile written).1, (c.get files compile written).2) := by
  unfold render rendered
  cases c.get files compile written with
  | mk outcome after =>
    cases outcome with
    | error fault => rfl
    | ok t =>
      dsimp only
      cases t.render g data named <;> rfl

theorem drop_frame (c : Cache) (key : Path) :
    (c.drop key).2.development = c.development ∧ (c.drop key).2.base = c.base := by
  unfold drop
  split <;> exact ⟨rfl, rfl⟩

section Drop
variable (locked : c.Locked) (key : Path)
include locked

theorem not_stored_of_not_locked {key : Path} (h : key ∉ c.locks) : c.stored? key = none := by
  cases stored : c.stored? key with
  | none => rfl
  | some t => exact absurd (locked key t stored) h

theorem drop_fst : (c.drop key).1 = (c.stored? key).isSome := by
  unfold drop
  split
  · rfl
  · rename_i unlocked
    rw [not_stored_of_not_locked locked (by simpa using unlocked)]
    rfl

theorem stored?_drop (other : Path) :
    (c.drop key).2.stored? other =
      if other = key then none else c.stored? other := by
  unfold drop
  split
  · exact lookup_filter c.templates key other
  · rename_i unlocked
    dsimp only
    split
    · rename_i same
      rw [same, not_stored_of_not_locked locked (by simpa using unlocked)]
    · rfl

theorem Locked.drop : (c.drop key).2.Locked := by
  intro other t stored
  rw [stored?_drop locked] at stored
  have kept : other ∈ c.locks := by
    split at stored
    · cases stored
    · exact locked other t stored
  unfold Cache.drop
  split <;> exact kept

end Drop

end Cache

/-- A request is a `get`, whatever is made of its outcome. -/
theorem World.step_of_asked {w : World} {e : Event} {written : String}
    (h : e.asked? = some written) :
    w.step e = (e.answer (w.cache.get w.files (Template.compile w.files) written).1,
      { w with cache := (w.cache.get w.files (Template.compile w.files) written).2 }) := by
  cases e with
  | get =>
    cases h
    rfl
  | render =>
    cases h
    dsimp only [step]
    rw [Cache.render_eq]
    rfl
  | _ => cases h

end Stencil
