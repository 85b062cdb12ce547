import Stencil.Proofs.Cache.Threads

/-! A thread that no other comes between does what a request does as a whole. -/
namespace Stencil

inductive Course (i : Nat) (s : Shared) (stage : Stage) : List Deed → Shared → Stage → Prop where
  | stay : Course i s stage [] s stage
  | go {deeds : List Deed} {s' s'' : Shared} {stage' stage'' : Stage} {d : Deed} :
      Course i s stage deeds s' stage' →
      Move i s' stage' d s'' stage'' → Course i s stage (d :: deeds) s'' stage''

namespace Shared
variable {i : Nat} {s : Shared} {key : Path} {t : Template} {outcome : Except LoadFault Template}

theorem ensure_cache (s : Shared) (key : Path) :
    (s.ensure key).cache = { s.cache with locks := s.cache.locks.insert key } := by
  unfold ensure
  split
  · rename_i present
    rw [List.insert_of_mem present]
  · rfl

theorem current_ensure (s : Shared) (key : Path) :
    (s.ensure key).Current key ((s.ensure key).lockOf key) := by
  refine ⟨?_, rfl⟩
  rw [ensure_cache]
  exact List.mem_insert_iff.2 (.inl rfl)

theorem holder_ensure (s : Shared) (key : Path) : (s.ensure key).holder = s.holder := by
  unfold ensure
  split <;> rfl

def opened (s : Shared) (i : Nat) (key : Path) : Shared :=
  (((s.ensure key).take ((s.ensure key).lockOf key) i).countMiss).countCompile

def deedsOf (key : Path) (outcome : Except LoadFault Template) : List Deed :=
  [.ends key outcome, .starts key, .works, .works, .works, .works, .works, .works, .works,
    .call (.get key)]

theorem course_opened (free : ∀ lock, s.holder lock = none) (unstored : s.stored? key = none) :
    Course i s .idle (deedsOf key outcome) (s.opened i key)
      (.holding key ((s.ensure key).lockOf key) (.compiled outcome)) := by
  have kept : (s.ensure key).stored? key = none := by
    rw [stored?, ensure_cache]
    exact unstored
  have asked : Course i s .idle [.works, .works, .call (.get key)] (s.ensure key)
      (.wait key ((s.ensure key).lockOf key) false) :=
    ((Course.stay.go (.callGet key)).go (.miss unstored)).go .request
  have taken := asked.go (.acquire (by rw [holder_ensure, free]))
  have confirmed := (taken.go (.recheckMiss kept)).go (.current (s.current_ensure key))
  exact (((confirmed.go .countMiss).go .countCompile).go .start).go (.compiled outcome)

theorem course_hit (stored : s.stored? key = some t) :
    Course i s .idle [.answers (.get key) (.template (.ok t)), .works, .works,
      .call (.get key)] s.countHit .idle :=
  (((Course.stay.go (.callGet key)).go (.hit stored)).go .countHit).go .answer

theorem course_ok (free : ∀ lock, s.holder lock = none) (unstored : s.stored? key = none)
    (t : Template) :
    Course i s .idle (.answers (.get key) (.template (.ok t)) :: .works :: .works ::
      deedsOf key (.ok t))
      (((s.opened i key).publish key t).release ((s.ensure key).lockOf key)) .idle :=
  (((course_opened free unstored).go .publish).go .leave).go .answer

theorem course_error (free : ∀ lock, s.holder lock = none) (unstored : s.stored? key = none)
    (fault : LoadFault) :
    Course i s .idle
      (.answers (.get key) (.template (.error fault)) :: .works :: .works ::
        deedsOf key (.error fault))
      (((s.opened i key).retire key ((s.ensure key).lockOf key)).release
        ((s.ensure key).lockOf key)) .idle :=
  (((course_opened free unstored).go .retire).go .leave).go .answer

theorem free_release (free : ∀ lock, s.holder lock = none) (i lock : Nat) :
    ∀ other, ((s.take lock i).release lock).holder other = none := by
  intro other
  by_cases same : other = lock
  · exact same ▸ Function.update_self ..
  · exact (Function.update_of_ne same ..).trans ((Function.update_of_ne same ..).trans (free other))

theorem free_opened (free : ∀ lock, s.holder lock = none) (i : Nat) (key : Path) :
    ∀ lock, ((s.opened i key).release ((s.ensure key).lockOf key)).holder lock = none :=
  free_release (fun lock => by rw [holder_ensure, free]) i _

theorem retire_opened (s : Shared) (i : Nat) (key : Path) :
    (s.opened i key).retire key ((s.ensure key).lockOf key) =
      { s.opened i key with
        cache := { (s.opened i key).cache with
          locks := (s.opened i key).cache.locks.erase key } } :=
  if_pos (s.current_ensure key)

theorem erase_insert (locks : List Path) (key : Path) :
    (locks.insert key).erase key = locks.erase key := by
  by_cases present : key ∈ locks
  · rw [List.insert_of_mem present]
  · rw [List.insert_of_not_mem present, List.erase_cons_head, List.erase_of_not_mem present]

section Requests
variable (free : ∀ lock, s.holder lock = none)
include free

/-- Asking for a template, done without a break and with what compiles now, is the request as a
whole. -/
theorem course_fetch (production : s.cache.development = false) (i : Nat) (compile : Cache.Compiler)
    (key : Path) :
    ∃ deeds s',
      Course i s .idle (.answers (.get key) (.template (s.cache.fetch compile key).1) :: deeds)
        s' .idle ∧
      s'.cache = (s.cache.fetch compile key).2 ∧ (∀ lock, s'.holder lock = none) ∧
      ∀ other outcome, .ends other outcome ∈ deeds → outcome = compile other := by
  rcases Cache.fetch_cases production compile key with ⟨t, found, hit⟩ | ⟨unstored, outcome⟩
  · rw [hit]
    exact ⟨_, _, course_hit found, rfl, free, by simp⟩
  · have opened : (s.opened i key).cache = { s.cache with
        locks := s.cache.locks.insert key
        misses := s.cache.misses + 1
        compilations := s.cache.compilations + 1 } := by
      simp only [Shared.opened, Shared.countCompile, Shared.countMiss, Shared.take, ensure_cache]
    rcases outcome with ⟨t, compiled, kept⟩ | ⟨fault, compiled, failed⟩
    · rw [kept]
      refine ⟨_, _, course_ok free unstored t, ?_,
        free_opened free i key, by simp [deedsOf, compiled]⟩
      simp only [publish, release, opened]
    · rw [failed]
      refine ⟨_, _, course_error free unstored fault, ?_, ?_, by simp [deedsOf, compiled]⟩
      · rw [retire_opened]
        simp only [release, opened, erase_insert]
      · rw [retire_opened]
        exact free_opened free i key

theorem course_drop (i : Nat) (key : Path) :
    ∃ deeds s',
      Course i s .idle (.answers (.invalidate key) (.flag (.ok (s.cache.drop key).1)) :: deeds)
        s' .idle ∧
      s'.cache = (s.cache.drop key).2 ∧ ∀ lock, s'.holder lock = none := by
  have asked : Course i s .idle [.call (.invalidate key)] s (.ask key) :=
    Course.stay.go (.callInvalidate key)
  unfold Cache.drop
  by_cases present : key ∈ s.cache.locks
  · rw [if_pos (by simpa using present)]
    have taken := (asked.go (.locked present)).go (.acquireDrop (free _))
    exact ⟨_, _, ((taken.go .pop).go .popped).go .answer, rfl, free_release free i _⟩
  · rw [if_neg (by simpa using present)]
    exact ⟨_, _, (asked.go (.unlocked present)).go .answer, rfl, free⟩

theorem course_clear (i : Nat) :
    ∃ deeds s', Course i s .idle (.answers .clear .done :: deeds) s' .idle ∧
      s'.cache = s.cache.clear ∧
      ∀ lock, s'.holder lock = none :=
  ⟨_, _, ((Course.stay.go .callClear).go .clear).go .answer, rfl, free⟩

end Requests

end Shared
end Stencil
