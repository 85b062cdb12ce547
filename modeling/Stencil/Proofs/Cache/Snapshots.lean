import Mathlib.Data.List.Basic
import Mathlib.Data.List.Induction
import Mathlib.Logic.Function.Basic
import Stencil.Proofs.Cache.Run

/-! In production a cache keeps snapshots: a path stands for what its file held when it was first
compiled since it was dropped last, and the locks of paths do not show. -/
namespace Stencil

/-- The files, and a template for some of the paths. -/
structure Snapshots where
  files : File.Tree
  stored : Path → Option Template

namespace Snapshots

def start (files : File.Tree) : Snapshots := ⟨files, fun _ => none⟩

def find (s : Snapshots) (key : Path) : Except LoadFault Template :=
  match s.stored key with
  | some t => .ok t
  | none => Template.compile s.files key

def keep (s : Snapshots) (key : Path) : Snapshots :=
  { s with stored := Function.update s.stored key (s.find key).toOption }

def drop (s : Snapshots) (key : Path) : Snapshots :=
  { s with stored := Function.update s.stored key none }

def get (base : File.Base) (s : Snapshots) (written : String) :
    Except LoadFault Template × Snapshots :=
  match s.files.resolve base written with
  | .ok key => (s.find key, s.keep key)
  | .error fault => (.error (.unresolvable fault), s)

def invalidate (base : File.Base) (s : Snapshots) (written : String) :
    Except PathFault Bool × Snapshots :=
  match s.files.resolve base written with
  | .ok key => (.ok (s.stored key).isSome, s.drop key)
  | .error fault => (.error fault, s)

def step (base : File.Base) (s : Snapshots) : Event → Answer × Snapshots
  | .edit files => (.done, { s with files := files })
  | .get written => (.template (s.get base written).1, (s.get base written).2)
  | .render g written data named =>
    (.text (Cache.rendered g data named (s.get base written).1), (s.get base written).2)
  | .isCached written =>
    (.flag ((s.files.resolve base written).map fun key => (s.stored key).isSome), s)
  | .invalidate written => (.flag (s.invalidate base written).1, (s.invalidate base written).2)
  | .clear => (.done, { s with stored := fun _ => none })
  | .compile source => (.template (Template.ofSource source), s)

def run (base : File.Base) (s : Snapshots) : List Event → List Answer × Snapshots
  | [] => ([], s)
  | e :: rest =>
    let others := run base (s.step base e).2 rest
    ((s.step base e).1 :: others.1, others.2)

theorem run_append (base : File.Base) (s : Snapshots) (u v : List Event) :
    s.run base (u ++ v) =
      ((s.run base u).1 ++ ((s.run base u).2.run base v).1, ((s.run base u).2.run base v).2) := by
  induction u generalizing s with
  | nil => rfl
  | cons e u ih => simp only [List.cons_append, run, ih]

theorem run_snoc_snd (base : File.Base) (s : Snapshots) (events : List Event) (e : Event) :
    (s.run base (events ++ [e])).2 = ((s.run base events).2.step base e).2 := by
  rw [run_append]
  rfl

section Steps
variable {base : File.Base} {key : Path} {s : Snapshots} {e : Event} {written : String}

theorem get_of_resolve (h : s.files.resolve base written = .ok key) :
    s.get base written = (s.find key, s.keep key) := by
  rw [get, h]

theorem get_of_fault {fault : PathFault} (h : s.files.resolve base written = .error fault) :
    s.get base written = (.error (.unresolvable fault), s) := by
  rw [get, h]

theorem invalidate_of_resolve (h : s.files.resolve base written = .ok key) :
    s.invalidate base written = (.ok (s.stored key).isSome, s.drop key) := by
  rw [invalidate, h]

theorem invalidate_of_fault {fault : PathFault} (h : s.files.resolve base written = .error fault) :
    s.invalidate base written = (.error fault, s) := by
  rw [invalidate, h]

theorem stored_get_of_other (h : s.files.resolve base written ≠ .ok key) :
    (s.get base written).2.stored key = s.stored key := by
  cases meant : s.files.resolve base written with
  | ok other =>
    rw [get_of_resolve meant]
    have apart : key ≠ other := by
      rintro rfl
      exact h meant
    exact Function.update_of_ne apart _ _
  | error fault => rw [get_of_fault meant]

theorem stored_invalidate_of_other (h : s.files.resolve base written ≠ .ok key) :
    (s.invalidate base written).2.stored key = s.stored key := by
  cases meant : s.files.resolve base written with
  | ok other =>
    rw [invalidate_of_resolve meant]
    have apart : key ≠ other := by
      rintro rfl
      exact h meant
    exact Function.update_of_ne apart _ _
  | error fault => rw [invalidate_of_fault meant]

theorem step_of_asked (h : e.asked? = some written) :
    s.step base e = (e.answer (s.get base written).1, (s.get base written).2) := by
  cases e with
  | get | render =>
    cases h
    rfl
  | _ => cases h

theorem step_of_asks (h : Occasion.Asks base key ⟨s.files, e⟩) :
    s.step base e = (e.answer (s.find key), s.keep key) := by
  obtain ⟨written, asked, meant⟩ := h
  rw [step_of_asked asked, get_of_resolve meant]

theorem stored_keep (s : Snapshots) (key : Path) :
    (s.keep key).stored key = (s.find key).toOption :=
  Function.update_self _ _ _

theorem stored_step_of_drops (h : Occasion.Drops base key ⟨s.files, e⟩) :
    (s.step base e).2.stored key = none := by
  cases e with
  | invalidate written =>
    dsimp only [step]
    rw [invalidate_of_resolve h]
    exact Function.update_self _ _ _
  | clear => rfl
  | _ => exact h.elim

theorem stored_step_of_other (asks : ¬Occasion.Asks base key ⟨s.files, e⟩)
    (drops : ¬Occasion.Drops base key ⟨s.files, e⟩) :
    (s.step base e).2.stored key = s.stored key := by
  cases e with
  | get written | render g written data named =>
    exact stored_get_of_other fun meant => asks ⟨written, rfl, meant⟩
  | invalidate written => exact stored_invalidate_of_other drops
  | clear => exact absurd trivial drops
  | edit | isCached | compile => rfl

theorem files_get (base : File.Base) (s : Snapshots) (written : String) :
    (s.get base written).2.files = s.files := by
  unfold get
  split <;> rfl

theorem files_step (base : File.Base) (s : Snapshots) (e : Event) :
    (s.step base e).2.files = e.filesAfter s.files := by
  cases e with
  | get written | render g written data named => exact files_get base s written
  | invalidate written =>
    dsimp only [step, invalidate]
    split <;> rfl
  | edit | isCached | clear | compile => rfl

theorem files_run (base : File.Base) (s : Snapshots) (events : List Event) :
    (s.run base events).2.files = filesAfter s.files events := by
  induction events generalizing s with
  | nil => rfl
  | cons e rest ih => exact (ih _).trans (congrArg (filesAfter · rest) (files_step base s e))

end Steps

end Snapshots

namespace World

structure Mirrors (base : File.Base) (w : World) (s : Snapshots) : Prop where
  production : w.cache.development = false
  here : w.cache.base = base
  files : w.files = s.files
  stored : ∀ key, w.cache.stored? key = s.stored key
  locked : w.cache.Locked

variable {base : File.Base} {w : World} {s : Snapshots}

theorem mirrors_start (base : File.Base) (files : File.Tree) :
    Mirrors base (start false base files) (.start files) :=
  ⟨rfl, rfl, rfl, fun _ => rfl, fun _ _ stored => by cases stored⟩

namespace Mirrors

theorem resolve (m : Mirrors base w s) (written : String) :
    w.files.resolve w.cache.base written = s.files.resolve base written := by
  rw [m.here, m.files]

theorem find (m : Mirrors base w s) (key : Path) :
    w.cache.find (Template.compile w.files) key = s.find key := by
  have stored := m.stored key
  unfold Cache.find Snapshots.find
  cases kept : s.stored key with
  | none => simp only [stored, kept, m.files]
  | some t => simp only [stored, kept]

theorem get (m : Mirrors base w s) (written : String) :
    (w.cache.get w.files (Template.compile w.files) written).1 = (s.get base written).1 ∧
      Mirrors base { w with cache := (w.cache.get w.files (Template.compile w.files) written).2 }
        (s.get base written).2 := by
  have same := m.resolve written
  cases meant : s.files.resolve base written with
  | error fault =>
    rw [Cache.get_of_fault (same.trans meant), Snapshots.get_of_fault meant]
    exact ⟨rfl, m⟩
  | ok key =>
    rw [Cache.get_of_resolve (same.trans meant), Snapshots.get_of_resolve meant]
    have frame := Cache.fetch_frame (Template.compile w.files) w.cache key
    refine ⟨(Cache.fetch_fst m.production key).trans (m.find key), frame.1.trans m.production,
      frame.2.trans m.here, m.files, fun other => ?_, m.locked.fetch m.production key⟩
    dsimp only [Snapshots.keep]
    rw [Cache.stored?_fetch m.production, m.find, m.stored, Function.update_apply]

theorem invalidate (m : Mirrors base w s) (written : String) :
    (w.cache.invalidate w.files written).1 = (s.invalidate base written).1 ∧
      Mirrors base { w with cache := (w.cache.invalidate w.files written).2 }
        (s.invalidate base written).2 := by
  have same := m.resolve written
  cases meant : s.files.resolve base written with
  | error fault =>
    rw [Cache.invalidate_of_fault (same.trans meant), Snapshots.invalidate_of_fault meant]
    exact ⟨rfl, m⟩
  | ok key =>
    rw [Cache.invalidate_of_resolve (same.trans meant), Snapshots.invalidate_of_resolve meant]
    have frame := w.cache.drop_frame key
    refine ⟨congrArg Except.ok ?_, frame.1.trans m.production, frame.2.trans m.here, m.files,
      fun other => ?_, m.locked.drop key⟩
    · rw [Cache.drop_fst m.locked, m.stored]
    · dsimp only [Snapshots.drop]
      rw [Cache.stored?_drop m.locked, m.stored, Function.update_apply]

theorem isCached (m : Mirrors base w s) (written : String) :
    w.cache.isCached w.files written =
      (s.files.resolve base written).map fun key => (s.stored key).isSome := by
  rw [Cache.isCached, Cache.resolve, m.resolve written]
  exact congrArg (Except.map · _) (funext fun key => congrArg Option.isSome (m.stored key))

/-- Whatever happens, the cache answers with its snapshots and goes on to hold what it should. -/
theorem step (m : Mirrors base w s) (e : Event) :
    (w.step e).1 = (s.step base e).1 ∧ Mirrors base (w.step e).2 (s.step base e).2 := by
  cases e with
  | edit files => exact ⟨rfl, m.production, m.here, rfl, m.stored, m.locked⟩
  | get written =>
    obtain ⟨answer, after⟩ := m.get written
    exact ⟨congrArg Answer.template answer, after⟩
  | render g written data named =>
    dsimp only [World.step, Snapshots.step]
    rw [Cache.render_eq]
    obtain ⟨answer, after⟩ := m.get written
    exact ⟨congrArg (fun found => Answer.text (Cache.rendered g data named found)) answer, after⟩
  | isCached written => exact ⟨congrArg Answer.flag (m.isCached written), m⟩
  | invalidate written =>
    obtain ⟨answer, after⟩ := m.invalidate written
    exact ⟨congrArg Answer.flag answer, after⟩
  | clear =>
    exact ⟨rfl, m.production, m.here, m.files, fun _ => rfl, fun _ _ stored => by cases stored⟩
  | compile source => exact ⟨rfl, m⟩

theorem run (m : Mirrors base w s) (events : List Event) :
    (w.run events).1 = (s.run base events).1 ∧
    Mirrors base (w.run events).2 (s.run base events).2 := by
  induction events generalizing w s with
  | nil => exact ⟨rfl, m⟩
  | cons e rest ih =>
    obtain ⟨answer, after⟩ := m.step e
    obtain ⟨answers, later⟩ := ih after
    exact ⟨congrArg₂ List.cons answer answers, later⟩

end Mirrors

end World

namespace Occasion
variable {base : File.Base} {key : Path} {past : List Occasion} {o : Occasion} {t t' : Template}

theorem append_singleton_eq_iff {before after : List Occasion} {x : Occasion} :
    past ++ [x] = before ++ o :: after ↔
      (after = [] ∧ past = before ∧ x = o) ∨
        ∃ rest, after = rest ++ [x] ∧ past = before ++ o :: rest := by
  rcases List.eq_nil_or_concat' after with rfl | ⟨rest, y, rfl⟩
  · simp
  · rw [← List.cons_append, ← List.append_assoc, List.append_singleton_inj]
    constructor
    · rintro ⟨split, rfl⟩
      exact .inr ⟨rest, rfl, split⟩
    · rintro (⟨none, -, -⟩ | ⟨rest', same, split⟩)
      · simp at none
      · obtain ⟨rfl, rfl⟩ := List.append_singleton_inj.1 same
        exact ⟨split, rfl⟩

def Failing (base : File.Base) (key : Path) (past : List Occasion) : Prop :=
  ∀ before o after, past = before ++ o :: after → o.Asks base key →
    (∀ d ∈ after, ¬d.Drops base key) →
    ∀ t, Template.compile o.files key ≠ .ok t

/-- The template is what the file held when the path was asked for with success for the first time
since it was dropped last. -/
def Compiled (base : File.Base) (key : Path) (past : List Occasion) (t : Template) : Prop :=
  ∃ before o after, past = before ++ o :: after ∧ o.Asks base key ∧
    Template.compile o.files key = .ok t ∧
    (∀ d ∈ after, ¬d.Drops base key) ∧ Failing base key before

theorem failing_nil : Failing base key [] := by
  intro before o after split
  cases before <;> cases split

theorem failing_of_drops (h : o.Drops base key) : Failing base key (past ++ [o]) := by
  intro before o' after split asks kept
  rcases append_singleton_eq_iff.1 split with ⟨-, -, rfl⟩ | ⟨rest, rfl, -⟩
  · exact absurd h asks.not_drops
  · exact absurd h (kept o (by simp))

theorem Failing.append_other (failing : Failing base key past) (h : ¬o.Asks base key) :
    Failing base key (past ++ [o]) := by
  intro before o' after split asks kept
  rcases append_singleton_eq_iff.1 split with ⟨-, -, rfl⟩ | ⟨rest, rfl, inside⟩
  · exact absurd asks h
  · exact failing before o' rest inside asks (List.forall_mem_append.1 kept).1

theorem Failing.append_asks (failing : Failing base key past)
    (h : ∀ t, Template.compile o.files key ≠ .ok t) : Failing base key (past ++ [o]) := by
  intro before o' after split asks kept
  rcases append_singleton_eq_iff.1 split with ⟨-, -, rfl⟩ | ⟨rest, rfl, inside⟩
  · exact h
  · exact failing before o' rest inside asks (List.forall_mem_append.1 kept).1

theorem Failing.compiled (failing : Failing base key past) (asks : o.Asks base key)
    (h : Template.compile o.files key = .ok t) : Compiled base key (past ++ [o]) t :=
  ⟨past, o, [], rfl, asks, h, by simp, failing⟩

theorem Compiled.append (compiled : Compiled base key past t) (h : ¬o.Drops base key) :
    Compiled base key (past ++ [o]) t := by
  obtain ⟨before, o', after, rfl, asks, loaded, kept, failing⟩ := compiled
  refine ⟨before, o', after ++ [o], by simp, asks, loaded, ?_, failing⟩
  exact List.forall_mem_append.2 ⟨kept, by simpa using h⟩

theorem Compiled.not_failing (compiled : Compiled base key past t) : ¬Failing base key past := by
  obtain ⟨before, o', after, split, asks, loaded, kept, -⟩ := compiled
  exact fun failing => failing before o' after split asks kept t loaded

theorem Compiled.unique (first : Compiled base key past t) (second : Compiled base key past t') :
    t = t' := by
  obtain ⟨u, d, v, rfl, asks, loaded, kept, failing⟩ := first
  obtain ⟨u', d', v', split, asks', loaded', kept', failing'⟩ := second
  -- the later of two successes would have an earlier one
  rcases List.append_eq_append_iff.1 split with ⟨mid, rfl, rest⟩ | ⟨mid, rfl, rest⟩
  · cases mid with
    | nil =>
      obtain ⟨rfl, -⟩ := List.cons.inj rest
      exact Except.ok.inj (loaded.symm.trans loaded')
    | cons x mid =>
      obtain ⟨rfl, rfl⟩ := List.cons.inj rest
      exact absurd loaded (failing' u d mid rfl asks (List.forall_mem_append.1 kept).1 t)
  · cases mid with
    | nil =>
      obtain ⟨rfl, -⟩ := List.cons.inj rest
      exact Except.ok.inj (loaded.symm.trans loaded')
    | cons x mid =>
      obtain ⟨rfl, rfl⟩ := List.cons.inj rest
      exact absurd loaded' (failing u' d' mid rfl asks' (List.forall_mem_append.1 kept').1 t')

end Occasion

namespace Snapshots
open Occasion (Compiled Failing)

/-- What is stored was compiled then, and what is not stored did not compile. -/
theorem stored_run (base : File.Base) (files : File.Tree) (events : List Event) (key : Path) :
    (∀ t, ((start files).run base events).2.stored key = some t →
        Compiled base key (occasions files events) t) ∧
      (((start files).run base events).2.stored key = none →
        Failing base key (occasions files events)) := by
  induction events using List.reverseRecOn with
  | nil => exact ⟨fun t stored => (by cases stored), fun _ => Occasion.failing_nil⟩
  | append_singleton events e ih =>
    obtain ⟨compiled, failing⟩ := ih
    have now : ((start files).run base events).2.files = filesAfter files events :=
      files_run base _ events
    rw [run_snoc_snd, occasions_snoc, ← now]
    by_cases asks : Occasion.Asks base key ⟨((start files).run base events).2.files, e⟩
    · rw [step_of_asks asks, stored_keep, find]
      cases stored : ((start files).run base events).2.stored key with
      | some t =>
        refine ⟨fun t' same => ?_, fun none => by cases none⟩
        cases same
        exact (compiled t stored).append asks.not_drops
      | none =>
        dsimp only
        cases loaded : Template.compile ((start files).run base events).2.files key with
        | ok t =>
          refine ⟨fun t' same => ?_, fun none => by cases none⟩
          cases same
          exact (failing stored).compiled asks loaded
        | error fault =>
          refine ⟨fun t' same => (by cases same),
            fun _ => (failing stored).append_asks fun t ok => ?_⟩
          cases loaded.symm.trans ok
    · by_cases drops : Occasion.Drops base key ⟨((start files).run base events).2.files, e⟩
      · rw [stored_step_of_drops drops]
        exact ⟨fun t same => (by cases same), fun _ => Occasion.failing_of_drops drops⟩
      · rw [stored_step_of_other asks drops]
        exact ⟨fun t stored => (compiled t stored).append drops,
          fun none => (failing none).append_other asks⟩

theorem stored_eq_some_iff {base : File.Base} {files : File.Tree} {events : List Event} {key : Path}
    {t : Template} :
    ((start files).run base events).2.stored key = some t ↔
      Compiled base key (occasions files events) t := by
  obtain ⟨compiled, failing⟩ := stored_run base files events key
  refine ⟨compiled t, fun given => ?_⟩
  cases stored : ((start files).run base events).2.stored key with
  | some t' => rw [(compiled t' stored).unique given]
  | none => exact absurd (failing stored) given.not_failing

end Snapshots

inductive Event.Respelled (base : File.Base) (files : File.Tree) : Event → Event → Prop where
  | edit (files' : File.Tree) : Respelled base files (.edit files') (.edit files')
  | get {written other : String} : files.resolve base written = files.resolve base other →
      Respelled base files (.get written) (.get other)
  | render (g : Globals) {written other : String} (data : Option Host)
      (named : List (String × Host)) :
      files.resolve base written = files.resolve base other →
      Respelled base files (.render g written data named) (.render g other data named)
  | isCached {written other : String} : files.resolve base written = files.resolve base other →
      Respelled base files (.isCached written) (.isCached other)
  | invalidate {written other : String} : files.resolve base written = files.resolve base other →
      Respelled base files (.invalidate written) (.invalidate other)
  | clear : Respelled base files .clear .clear
  | compile (source : String) : Respelled base files (.compile source) (.compile source)

/-- The same events with other spellings of the paths, each of which means the same when its turn
comes. -/
inductive Event.Respelling (base : File.Base) : File.Tree → List Event → List Event → Prop where
  | nil (files : File.Tree) : Respelling base files [] []
  | cons {files : File.Tree} {e e' : Event} {rest rest' : List Event} : e.Respelled base files e' →
      Respelling base (e.filesAfter files) rest rest' →
      Respelling base files (e :: rest) (e' :: rest')

namespace World

theorem step_respelled {w : World} {e e' : Event} (h : e.Respelled w.cache.base w.files e') :
    w.step e' = w.step e := by
  cases h with
  | edit | clear | compile => rfl
  | get same => simp only [step, Cache.get, Cache.resolve, same]
  | render g data named same => simp only [step, Cache.render_eq, Cache.get, Cache.resolve, same]
  | isCached same => simp only [step, Cache.isCached, Cache.resolve, same]
  | invalidate same => simp only [step, Cache.invalidate, Cache.resolve, same]

theorem Mirrors.run_respelled {base : File.Base} {w : World} {s : Snapshots} (m : Mirrors base w s)
    {events events' : List Event} (h : Event.Respelling base s.files events events') :
    w.run events' = w.run events := by
  generalize met : s.files = files at h
  induction h generalizing w s with
  | nil => rfl
  | @cons files e e' rest rest' first _ ih =>
    subst met
    have same : w.step e' = w.step e := by
      rw [← m.here, ← m.files] at first
      exact step_respelled first
    rw [run_cons, run_cons, same, ih (m.step e).2 (Snapshots.files_step base s e)]

/-- A cache in production answers, over every run, as if it kept snapshots and nothing else. A path
stands for what its file held when it was asked for with success for the first time since it was
dropped last, and spellings of one path may stand for one another. -/
theorem run_snapshots (base : File.Base) (files : File.Tree) (events : List Event) :
    let after := (start false base files).run events
    let snapshots := (Snapshots.start files).run base events
    after.1 = snapshots.1 ∧ (∀ key, after.2.cache.stored? key = snapshots.2.stored key) ∧
      (∀ key t, after.2.cache.stored? key = some t ↔
        Occasion.Compiled base key (occasions files events) t) ∧
      ∀ events', Event.Respelling base files events events' →
        (start false base files).run events' = after := by
  intro after snapshots
  obtain ⟨answers, mirrors⟩ := (mirrors_start base files).run events
  refine ⟨answers, mirrors.stored,
    fun key t => ?_, fun events' => (mirrors_start base files).run_respelled⟩
  rw [mirrors.stored, Snapshots.stored_eq_some_iff]

end World

end Stencil
