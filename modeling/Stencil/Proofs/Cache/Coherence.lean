import Stencil.Proofs.Cache.Snapshots
import Stencil.Proofs.Outcome

/-! A cache that is told of what changes answers as if it kept nothing. -/
namespace Stencil

def Template.reading (files : File.Tree) (key : Path) : Except LoadFault (Path × String) :=
  sourceOf files .top key.text

theorem Template.compile_congr {files now : File.Tree} {key : Path}
    (same : reading now key = reading files key) : compile now key = compile files key := by
  rw [compile, load, compile, load, ← reading, ← reading, same]

section Splits
variable {base : File.Base} {key : Path} {files : File.Tree} {events : List Event}

theorem occasions_eq_append {u v : List Occasion} {o : Occasion}
    (h : occasions files events = u ++ o :: v) :
    ∃ before rest, occasions files before = u ∧ filesAfter files before = o.files ∧
      events = before ++ o.event :: rest ∧ occasions (o.event.filesAfter o.files) rest = v := by
  induction u generalizing files events with
  | nil =>
    cases events with
    | nil => cases h
    | cons e rest =>
      cases h
      exact ⟨[], rest, rfl, rfl, rfl, rfl⟩
  | cons first u ih =>
    cases events with
    | nil => cases h
    | cons e rest =>
      obtain ⟨rfl, behind⟩ := List.cons.inj h
      obtain ⟨before, rest, rfl, now, rfl, later⟩ := ih behind
      exact ⟨e :: before, rest, rfl, now, rfl, later⟩

/-- If a file reads differently after some events, one of them changed it. -/
theorem exists_change
    (h : Template.reading (filesAfter files events) key ≠ Template.reading files key) :
    ∃ before old new after, occasions files events = before ++ ⟨old, .edit new⟩ :: after ∧
      Template.reading new key ≠ Template.reading old key := by
  induction events generalizing files with
  | nil => exact absurd rfl h
  | cons e rest ih =>
    by_cases same : Template.reading (e.filesAfter files) key = Template.reading files key
    · rw [← same] at h
      obtain ⟨before, old, new, after, split, changes⟩ := ih h
      exact ⟨⟨files, e⟩ :: before, old, new, after, congrArg (List.cons _) split, changes⟩
    · cases e with
      | edit new => exact ⟨[], files, new, _, rfl, same⟩
      | _ => exact absurd rfl same

end Splits

namespace Occasion
variable {base : File.Base} {key : Path} {past : List Occasion} {o : Occasion} {t : Template}

def LastFailed (base : File.Base) (key : Path) (past : List Occasion) : Prop :=
  ∀ earlier o since, past = earlier ++ o :: since → o.Asks base key →
    (∀ d ∈ since, ¬d.Asks base key) →
    ∃ fault, Template.compile o.files key = .error fault

/-- When reading a path comes to yield something else, the path is dropped before it is asked for
again, or else it was asked for in vain before. -/
def Announced (base : File.Base) (past : List Occasion) : Prop :=
  ∀ before old new since o after key, past = before ++ ⟨old, .edit new⟩ :: (since ++ o :: after) →
    o.Asks base key → (∀ d ∈ since, ¬d.Asks base key) →
    Template.reading new key ≠ Template.reading old key →
    (∃ d ∈ since, d.Drops base key) ∨ LastFailed base key before

/-- The template is what the file held when the path was asked for last, and it was not dropped
since. -/
def Kept (base : File.Base) (key : Path) (past : List Occasion) (t : Template) : Prop :=
  ∃ earlier o since, past = earlier ++ o :: since ∧ o.Asks base key ∧
    (∀ d ∈ since, ¬d.Asks base key) ∧
    (∀ d ∈ since, ¬d.Drops base key) ∧ Template.compile o.files key = .ok t

theorem Announced.of_append {rest : List Occasion} (announced : Announced base (past ++ rest)) :
    Announced base past := by
  rintro before old new since o after key rfl
  exact announced before old new since o (after ++ rest) key (by simp)

/-- What is kept is what the file holds, whenever the path is asked for. -/
theorem Announced.compile {files : File.Tree} {events : List Event}
    (announced : Announced base (occasions files events ++ [o])) (asks : o.Asks base key)
    (kept : Kept base key (occasions files events) t) :
    Template.compile (filesAfter files events) key = .ok t := by
  obtain ⟨earlier, o', since, split, asks', unasked, undropped, compiled⟩ := kept
  obtain ⟨before, rest, rfl, now, rfl, later⟩ := occasions_eq_append split
  rw [asks'.filesAfter] at later
  have files_now : filesAfter files (before ++ o'.event :: rest) = filesAfter o'.files rest := by
    rw [filesAfter, List.foldl_append, List.foldl_cons]
    change filesAfter (o'.event.filesAfter (filesAfter files before)) rest = _
    rw [now, asks'.filesAfter]
  rw [files_now]
  by_cases same : Template.reading (filesAfter o'.files rest) key = Template.reading o'.files key
  · rw [Template.compile_congr same, compiled]
  · obtain ⟨between, old, new, after, changed, changes⟩ := exists_change same
    rw [← later, changed, List.forall_mem_append, List.forall_mem_cons] at unasked undropped
    have whole : occasions files (before ++ o'.event :: rest) ++ [o] =
        (occasions files before ++ o' :: between) ++ ⟨old, .edit new⟩ :: (after ++ o :: []) := by
      rw [split, ← later, changed]
      simp
    rcases announced _ old new after o [] key whole asks unasked.2.2 changes with
      ⟨d, inside, drops⟩ | failed
    · exact absurd drops (undropped.2.2 d inside)
    · obtain ⟨fault, vain⟩ := failed _ o' between rfl asks' unasked.1
      cases compiled.symm.trans vain

theorem Kept.append_other (kept : Kept base key past t) (asks : ¬o.Asks base key)
    (drops : ¬o.Drops base key) : Kept base key (past ++ [o]) t := by
  obtain ⟨earlier, o', since, rfl, asks', unasked, undropped, compiled⟩ := kept
  refine ⟨earlier, o', since ++ [o], by simp, asks', ?_, ?_, compiled⟩
  · exact List.forall_mem_append.2 ⟨unasked, by simpa using asks⟩
  · exact List.forall_mem_append.2 ⟨undropped, by simpa using drops⟩

end Occasion

namespace Snapshots
open Occasion (Announced Kept)
variable {base : File.Base} {key : Path} {files : File.Tree} {events : List Event} {o : Occasion}

theorem find_of_kept (announced : Announced base (occasions files events ++ [o]))
    (asks : o.Asks base key) (kept : ∀ t, ((start files).run base events).2.stored key = some t →
      Kept base key (occasions files events) t) :
    ((start files).run base events).2.find key =
      Template.compile (filesAfter files events) key := by
  rw [find, files_run]
  cases stored : ((start files).run base events).2.stored key with
  | some t => exact (announced.compile asks (kept t stored)).symm
  | none => rfl

theorem stored_kept (announced : Announced base (occasions files events)) (key : Path)
    (t : Template) :
    ((start files).run base events).2.stored key = some t →
    Kept base key (occasions files events) t := by
  induction events using List.reverseRecOn generalizing t with
  | nil =>
    intro stored
    cases stored
  | append_singleton events e ih =>
    have now : ((start files).run base events).2.files = filesAfter files events :=
      files_run base _ events
    rw [occasions_snoc] at announced ⊢
    rw [run_snoc_snd]
    have before := announced.of_append
    by_cases asks : Occasion.Asks base key ⟨filesAfter files events, e⟩
    · rw [step_of_asks (now ▸ asks), stored_keep, find_of_kept announced asks (ih before)]
      intro compiled
      exact ⟨_, _, [], rfl, asks, by simp, by simp, Outcome.eq_ok_of_toOption compiled⟩
    · by_cases drops : Occasion.Drops base key ⟨filesAfter files events, e⟩
      · rw [stored_step_of_drops (now ▸ drops)]
        intro stored
        cases stored
      · rw [stored_step_of_other (now ▸ asks) (now ▸ drops)]
        exact fun stored => (ih before t stored).append_other asks drops

end Snapshots

namespace World

structure Uncached (base : File.Base) (files : File.Tree) (w : World) : Prop where
  development : w.cache.development = true
  here : w.cache.base = base
  files : w.files = files

variable {base : File.Base} {key : Path} {files : File.Tree} {w : World} {e : Event}

namespace Uncached

theorem get_of_fault (u : Uncached base files w) {written : String} {fault : PathFault}
    (meant : files.resolve base written = .error fault) :
    (w.cache.get w.files (Template.compile w.files) written).1 = .error (.unresolvable fault) := by
  obtain ⟨-, rfl, rfl⟩ := u
  rw [Cache.get_of_fault meant]

theorem get_of_resolve (u : Uncached base files w) {written : String}
    (meant : files.resolve base written = .ok key) :
    (w.cache.get w.files (Template.compile w.files) written).1 = Template.compile files key := by
  obtain ⟨development, rfl, rfl⟩ := u
  rw [Cache.get_of_resolve meant, Cache.fetch_development development]

theorem get (u : Uncached base files w) (written : String) :
    Uncached base files { w with
      cache := (w.cache.get w.files (Template.compile w.files) written).2 } := by
  cases meant : w.files.resolve w.cache.base written with
  | error fault =>
    rw [Cache.get_of_fault meant]
    exact u
  | ok key =>
    rw [Cache.get_of_resolve meant]
    have frame := Cache.fetch_frame (Template.compile w.files) w.cache key
    exact ⟨frame.1.trans u.development, frame.2.trans u.here, u.files⟩

theorem step (u : Uncached base files w) (e : Event) :
    Uncached base (e.filesAfter files) (w.step e).2 := by
  cases e with
  | edit now => exact ⟨u.development, u.here, rfl⟩
  | get written => exact u.get written
  | render g written data named =>
    rw [step_of_asked rfl]
    exact u.get written
  | invalidate written =>
    dsimp only [World.step]
    cases meant : w.files.resolve w.cache.base written with
    | error fault =>
      rw [Cache.invalidate_of_fault meant]
      exact u
    | ok key =>
      rw [Cache.invalidate_of_resolve meant]
      have frame := w.cache.drop_frame key
      exact ⟨frame.1.trans u.development, frame.2.trans u.here, u.files⟩
  | clear => exact ⟨u.development, u.here, u.files⟩
  | isCached | compile => exact u

theorem run (u : Uncached base files w) (events : List Event) :
    Uncached base (filesAfter files events) (w.run events).2 := by
  induction events generalizing files w with
  | nil => exact u
  | cons e rest ih => exact ih (u.step e)

end Uncached

theorem getElem?_run (w : World) (before : List Event) (e : Event) (after : List Event) :
    (w.run (before ++ e :: after)).1[before.length]? = some ((w.run before).2.step e).1 := by
  induction before generalizing w with
  | nil => rfl
  | cons d before ih => exact ih (w.step d).2

/-- If it is told of all changes that matter, a cache in production answers each request just as a
cache in development does. -/
theorem cached_eq_uncached {base : File.Base} {files : File.Tree} {events : List Event}
    (announced : Occasion.Announced base (occasions files events)) {before : List Event} {e : Event}
    {after : List Event} {written : String} (split : events = before ++ e :: after)
    (asked : e.asked? = some written) :
    ((start false base files).run events).1[before.length]? =
      ((start true base files).run events).1[before.length]? := by
  subst split
  have told :
      Occasion.Announced base (occasions files before ++ [⟨filesAfter files before, e⟩]) := by
    rw [List.append_cons, occasions_append, occasions_snoc] at announced
    exact announced.of_append
  obtain ⟨-, mirrors⟩ := (mirrors_start base files).run before
  have start : Uncached base files (start true base files) := ⟨rfl, rfl, rfl⟩
  have uncached := start.run before
  have now : ((Snapshots.start files).run base before).2.files = filesAfter files before :=
    Snapshots.files_run base _ before
  rw [getElem?_run, getElem?_run, (mirrors.step e).1, step_of_asked asked,
    Snapshots.step_of_asked asked]
  refine congrArg (fun found => some (e.answer found)) ?_
  cases meant : (filesAfter files before).resolve base written with
  | error fault => rw [Snapshots.get_of_fault (now ▸ meant), uncached.get_of_fault meant]
  | ok key =>
    have asks : Occasion.Asks base key ⟨filesAfter files before, e⟩ := ⟨written, asked, meant⟩
    rw [Snapshots.get_of_resolve (now ▸ meant), uncached.get_of_resolve meant]
    exact Snapshots.find_of_kept told asks (Snapshots.stored_kept told.of_append key)

/-- A file appears after it was asked for in vain, and changes when its path was dropped under
another name. -/
theorem cached_eq_uncached_edited :
    let base : File.Base := ⟨.top, ""⟩
    let appeared := File.Tree.empty.put ⟨["a"]⟩ (.file [120])
    let edited := File.Tree.empty.put ⟨["a"]⟩ (.file [121])
    let events : List Event :=
      [.get "a", .edit appeared, .get "./a", .edit edited, .invalidate "b/../a", .get "a"]
    Occasion.Announced base (occasions .empty events) ∧
      ((start false base .empty).run events).1[5]? =
        ((start true base .empty).run events).1[5]? := by
  intro base appeared edited events
  have first : File.Tree.empty.resolve base "a" = .ok ⟨["a"]⟩ := by rfl
  have again : edited.resolve base "a" = .ok ⟨["a"]⟩ := by rfl
  have other : edited.resolve base "b/../a" = .ok ⟨["a"]⟩ := by rfl
  have absent : Template.compile .empty ⟨["a"]⟩ = .error (.unreadable ⟨["a"]⟩ .absent) := by rfl
  have announced : Occasion.Announced base (occasions .empty events) := by
    intro before old new since o after key split asks unasked changes
    have edits : ∃ rest, before = ⟨.empty, .get "a"⟩ :: rest ∧
        (rest = [] ∧ (old = .empty ∧ new = appeared) ∧
          since ++ o :: after = [⟨appeared, .get "./a"⟩,
            ⟨appeared, .edit edited⟩, ⟨edited, .invalidate "b/../a"⟩, ⟨edited, .get "a"⟩] ∨
          rest = [⟨.empty, .edit appeared⟩, ⟨appeared, .get "./a"⟩] ∧
            (old = appeared ∧ new = edited) ∧
            since ++ o :: after = [⟨edited, .invalidate "b/../a"⟩, ⟨edited, .get "a"⟩]) := by
      simpa [events, occasions, Event.filesAfter, List.cons_eq_append_iff] using split
    obtain ⟨_, rfl, ⟨rfl, -, -⟩ | ⟨-, -, rest⟩⟩ := edits
    · right
      intro earlier o' since' past asks' _
      obtain ⟨rfl, rfl, -⟩ : earlier = [] ∧ o' = ⟨.empty, .get "a"⟩ ∧ since' = [] := by
        simpa [List.cons_eq_append_iff] using past
      obtain ⟨_, ⟨⟩, meant⟩ := asks'
      obtain rfl := Except.ok.inj (first.symm.trans meant)
      exact ⟨_, absent⟩
    · left
      cases since with
      | nil =>
        cases rest
        obtain ⟨_, ⟨⟩, -⟩ := asks
      | cons d since =>
        obtain ⟨rfl, rfl, rfl, -⟩ : d = ⟨edited, .invalidate "b/../a"⟩ ∧ since = [] ∧
            o = ⟨edited, .get "a"⟩ ∧ after = [] := by
          simpa [List.append_eq_cons_iff] using rest
        obtain ⟨_, ⟨⟩, meant⟩ := asks
        obtain rfl := Except.ok.inj (again.symm.trans meant)
        exact ⟨_, List.mem_cons_self, other⟩
  have split : events = events.take 5 ++ .get "a" :: [] := rfl
  have five : (events.take 5).length = 5 := rfl
  have same := cached_eq_uncached announced split rfl
  rw [five] at same
  exact ⟨announced, same⟩

end World

end Stencil
