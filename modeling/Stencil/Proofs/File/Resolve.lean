import Stencil.File.Resolve

/-! A resolved path leads to itself. Only a path that was taken by its text behind a loop of links
may have links on it once more. -/
namespace Stencil

namespace Path

structure Proper (name : String) : Prop where
  nonempty : name ≠ ""
  not_here : name ≠ "."
  not_parent : name ≠ ".."
  whole : '/' ∉ name.toList
  no_null : File.Tree.hasNull name = false

theorem not_mem_of_mem_splitOn {cs step : List Char} {c : Char} (h : step ∈ cs.splitOn c) :
    c ∉ step := by
  induction cs generalizing step with
  | nil =>
    rw [List.splitOn_nil, List.mem_singleton] at h
    exact h ▸ List.not_mem_nil
  | cons d cs ih =>
    rw [List.splitOn_cons_eq_if_modifyHead] at h
    split at h
    · rcases List.mem_cons.1 h with rfl | behind
      · exact List.not_mem_nil
      · exact ih behind
    · rename_i other
      obtain ⟨first, others, parts⟩ := List.exists_cons_of_ne_nil (List.splitOn_ne_nil c cs)
      rw [parts, List.modifyHead_cons] at h
      rcases List.mem_cons.1 h with rfl | behind
      · refine List.not_mem_cons_of_ne_of_not_mem
          (fun same => other (beq_iff_eq.2 same.symm)) (ih ?_)
        exact parts ▸ List.mem_cons_self
      · exact ih (parts ▸ List.mem_cons_of_mem _ behind)

theorem not_mem_of_mem_stepsOf {written step : String} (h : step ∈ stepsOf written) :
    '/' ∉ step.toList := by
  obtain ⟨cs, inside, rfl⟩ := List.mem_map.1 h
  rw [String.toList_ofList]
  exact not_mem_of_mem_splitOn inside

/-- The steps of a path's own text are its names. -/
theorem stepsOf_text {p : Path} (proper : ∀ name ∈ p.names, Proper name) (below : p.names ≠ []) :
    stepsOf p.text = "" :: p.names := by
  have parts : ("/".intercalate p.names).toList.splitOn '/' = p.names.map String.toList := by
    rw [String.toList_intercalate]
    refine List.splitOn_intercalate '/' (fun step inside => ?_) (by simpa using below)
    obtain ⟨name, mem, rfl⟩ := List.mem_map.1 inside
    exact (proper name mem).whole
  have first : p.text.toList = '/' :: ("/".intercalate p.names).toList := by
    rw [text, String.toList_append]
    rfl
  rw [stepsOf, first, List.splitOn_cons_eq_if_modifyHead, if_pos (by simp), parts, List.map_cons,
    List.map_map]
  congr 1
  exact (List.map_congr_left fun name _ => String.ofList_toList).trans (List.map_id _)

end Path

namespace File.Tree
open Stencil.Path (Proper)
variable {t : Tree} {p q : Path} {name : String} {names : List String}

structure Straight (t : Tree) (p : Path) : Prop where
  proper : ∀ name ∈ p.names, Proper name
  unlinked : ∀ (q : Path) (name target : String), (q.down name).names <+: p.names →
    t.find? (q.down name) ≠ some (.link target)

theorem Straight.top (t : Tree) : t.Straight .top := by
  refine ⟨fun name mem => (by cases mem), fun q name target inside => ?_⟩
  have none := List.prefix_nil.1 inside
  simp [Path.down] at none

theorem Straight.of_prefix (h : t.Straight p) (inside : q.names <+: p.names) : t.Straight q :=
  ⟨fun name mem => h.proper name (inside.subset mem),
    fun r name target within => h.unlinked r name target (within.trans inside)⟩

theorem Straight.parent (h : t.Straight p) : t.Straight p.parent :=
  h.of_prefix (List.dropLast_prefix _)

theorem Straight.down (h : t.Straight p) (proper : Proper name)
    (unlinked : ∀ target, t.find? (p.down name) ≠ some (.link target)) :
    t.Straight (p.down name) := by
  refine ⟨fun other mem => ?_, fun q other target inside => ?_⟩
  · rcases List.mem_append.1 mem with before | last
    · exact h.proper other before
    · exact List.mem_singleton.1 last ▸ proper
  · rcases List.prefix_concat_iff.1 inside with same | before
    · obtain ⟨rfl, rfl⟩ : q = p ∧ other = name := by
        obtain ⟨first, last⟩ := List.append_singleton_inj.1 same
        exact ⟨Path.mk.injEq .. ▸ first, last⟩
      exact unlinked target
    · exact h.unlinked q other target before

/-- A way that never meets a link within itself ends straight. -/
theorem Straight.follow {behind : Path → Path → List String → Except PathFault (Path × Bool)}
    (beyond : ∀ link start target q, t.Straight start →
      behind link start (Path.stepsOf target) = .ok (q, true) → t.Straight q)
    (h : t.Straight p) (whole : ∀ name ∈ names, '/' ∉ name.toList)
    (arrives : t.follow behind p names = .ok (q, true)) : t.Straight q := by
  induction names generalizing p with
  | nil =>
    cases arrives
    exact h
  | cons name rest ih =>
    have later : ∀ name ∈ rest, '/' ∉ name.toList :=
      fun name mem => whole name (List.mem_cons_of_mem _ mem)
    rw [Tree.follow] at arrives
    split at arrives
    · exact ih h later arrives
    · rename_i named
      split at arrives
      · exact ih h.parent later arrives
      · rename_i not_parent
        split at arrives
        · cases arrives
        · rename_i no_null
          split at arrives
          · rename_i target found
            split at arrives
            · rename_i r led
              refine ih (beyond _ _ target r ?_ led) later arrives
              split
              · exact .top t
              · exact h
            · cases arrives
            · cases arrives
          · rename_i unlinked
            have proper : Proper name :=
              ⟨fun same => named (.inl same), fun same => named (.inr same), not_parent,
                whole name List.mem_cons_self, by simpa using no_null⟩
            exact ih (h.down proper unlinked) later arrives

theorem Straight.followLinks {links : Nat} {pending : List Path} (h : t.Straight p)
    (whole : ∀ name ∈ names, '/' ∉ name.toList)
    (arrives : t.followLinks links pending p names = .ok (q, true)) : t.Straight q := by
  induction links generalizing pending p q names with
  | zero => exact h.follow (fun _ _ _ _ _ led => by cases led) whole arrives
  | succ links ih =>
    refine h.follow (fun link start target q start_straight led => ?_) whole arrives
    split at led
    · cases led
    · exact ih start_straight (fun _ => Path.not_mem_of_mem_stepsOf) led

theorem names_down (p : Path) (name : String) (rest : List String) :
    (p.down name).names ++ rest = p.names ++ name :: rest := by
  rw [Path.down, List.append_assoc, List.singleton_append]

/-- What a straight way meets at its next step. -/
theorem Straight.next (h : t.Straight ⟨p.names ++ name :: names⟩) :
    Proper name ∧ (∀ target, t.find? (p.down name) ≠ some (.link target)) ∧
      t.Straight ⟨(p.down name).names ++ names⟩ :=
  ⟨h.proper name (List.mem_append_right _ List.mem_cons_self),
    fun target => h.unlinked p name target ⟨names, names_down p name names⟩,
    names_down p name names ▸ h⟩

/-- The rest of a straight way is gone down by its names. -/
theorem follow_of_straight {behind : Path → Path → List String → Except PathFault (Path × Bool)}
    (h : t.Straight ⟨p.names ++ names⟩) :
    t.follow behind p names = .ok (⟨p.names ++ names⟩, true) := by
  induction names generalizing p with
  | nil =>
    rw [List.append_nil]
    rfl
  | cons name rest ih =>
    obtain ⟨proper, unlinked, later⟩ := h.next
    rw [follow, if_neg (not_or.2 ⟨proper.nonempty, proper.not_here⟩), if_neg proper.not_parent,
      if_neg (by simp [proper.no_null]), ← names_down]
    split
    · rename_i target found
      exact absurd found (unlinked target)
    · exact ih later

theorem descend_of_straight {behind : Path → List String → Except ReadFault (List UInt8)}
    (h : t.Straight ⟨p.names ++ names⟩) : t.descend behind p names ≠ .error .tooManyLinks := by
  induction names generalizing p with
  | nil => exact fun same => by cases same
  | cons name rest ih =>
    obtain ⟨proper, unlinked, later⟩ := h.next
    rw [descend, if_neg (not_or.2 ⟨proper.nonempty, proper.not_here⟩), if_neg proper.not_parent]
    split
    · exact ih later
    · split <;> exact fun same => by cases same
    · rename_i target found
      exact absurd found (unlinked target)
    · split <;> exact fun same => by cases same

theorem bytes_of_straight (h : t.Straight p) : t.bytes p ≠ .error .tooManyLinks := by
  unfold bytes
  split
  · exact fun same => by cases same
  · exact descend_of_straight (p := .top) h

theorem resolve_of_walk {base : Base} {written : String} {flag : Bool} (h : t.Straight p)
    (arrives : t.walk base written = .ok (p, flag)) : t.resolve base written = .ok p := by
  have no_null : p.names.any hasNull = false :=
    List.any_eq_false.2 fun name mem => by simp [(h.proper name mem).no_null]
  unfold resolve
  rw [arrives]
  dsimp only
  rw [no_null, if_neg Bool.false_ne_true]
  split
  · rename_i found
    exact absurd found (bytes_of_straight h)
  · rfl

theorem followLinks_of_straight (links : Nat) (pending : List Path)
    (h : t.Straight ⟨p.names ++ names⟩) :
    t.followLinks links pending p names = .ok (⟨p.names ++ names⟩, true) := by
  cases links <;> exact follow_of_straight h

theorem walk_text (h : t.Straight p) (base : Base) : t.walk base p.text = .ok (p, true) := by
  have first : Path.startsAtTop p.text = true := by
    rw [Path.startsAtTop, Path.text, String.toList_append]
    rfl
  rw [walk, Base.start, Base.steps, first, Bool.true_or, if_pos rfl, if_pos rfl]
  by_cases below : p.names = []
  · obtain rfl : p = .top := congrArg Path.mk below
    cases t.entries.length <;> rfl
  · rw [Path.stepsOf_text h.proper below]
    -- the empty step before the first slash leads nowhere
    have skip : t.followLinks t.entries.length [] .top ("" :: p.names) =
        t.followLinks t.entries.length [] .top p.names := by
      cases t.entries.length <;> rfl
    rw [skip]
    exact followLinks_of_straight (p := .top) _ _ h

theorem straight_of_walk {base : Base} {written : String} (here : t.Straight base.here)
    (arrives : t.walk base written = .ok (p, true)) : t.Straight p := by
  have start : t.Straight (base.start written) := by
    unfold Base.start
    split
    · exact .top t
    · exact here
  refine start.followLinks (fun name mem => ?_) arrives
  unfold Base.steps at mem
  split at mem
  · exact Path.not_mem_of_mem_stepsOf mem
  · exact (List.mem_append.1 mem).elim Path.not_mem_of_mem_stepsOf Path.not_mem_of_mem_stepsOf

/-- A path that is resolved without a loop is resolved for good: its own text leads to it from
everywhere. -/
theorem resolve_twice {base : Base} {written : String} (here : t.Straight base.here)
    (arrives : t.walk base written = .ok (p, true)) :
    t.resolve base written = .ok p ∧ ∀ other, t.resolve other p.text = .ok p :=
  have straight := straight_of_walk here arrives
  ⟨resolve_of_walk straight arrives,
    fun other => resolve_of_walk straight (walk_text straight other)⟩

end File.Tree
end Stencil
