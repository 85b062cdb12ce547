import Mathlib.Logic.Function.Basic
import Stencil.Proofs.Cache.Run

/-! A cache in production in the hands of many threads. What a thread does alone between two points
where another may come in is a single step: the look up without a lock, each section under the
guard, taking the lock of a path and giving it back, the start and the end of a compile, and putting
templates in and out. -/
namespace Stencil

inductive Request where
  | get (key : Path)
  | invalidate (key : Path)
  | clear

inductive Phase where
  | recheck
  | found (t : Template)
  | confirm
  /-- Others have given up this lock, so the request begins again. -/
  | retry
  | countMiss
  | countCompile
  | start
  | compiling
  | compiled (outcome : Except LoadFault Template)
  | leave (outcome : Except LoadFault Template)
  | pop
  | popped (found : Bool)

def Phase.Committed : Phase → Prop
  | countMiss | countCompile | start | compiling | compiled _ => True
  | _ => False

/-- Where a thread stands. Locks are numbered in the order they are made. -/
inductive Stage where
  | idle
  | look (key : Path)
  | found (key : Path) (t : Template)
  | request (key : Path)
  | ask (key : Path)
  | wait (key : Path) (lock : Nat) (dropping : Bool)
  | holding (key : Path) (lock : Nat) (phase : Phase)
  | sweep
  | answer (r : Request) (a : Answer)

inductive Deed where
  | call (r : Request)
  | starts (key : Path)
  | ends (key : Path) (outcome : Except LoadFault Template)
  | answers (r : Request) (a : Answer)
  | works

structure Shared where
  cache : Cache
  lockOf : Path → Nat
  holder : Nat → Option Nat
  /-- So many locks have been made. -/
  made : Nat

namespace Shared

def Current (s : Shared) (key : Path) (lock : Nat) : Prop :=
  key ∈ s.cache.locks ∧ s.lockOf key = lock

instance (s : Shared) (key : Path) (lock : Nat) : Decidable (s.Current key lock) :=
  inferInstanceAs (Decidable (_ ∧ _))

def stored? (s : Shared) (key : Path) : Option Template := s.cache.stored? key

def countHit (s : Shared) : Shared := { s with cache := { s.cache with hits := s.cache.hits + 1 } }

def countMiss (s : Shared) : Shared :=
  { s with cache := { s.cache with misses := s.cache.misses + 1 } }

def countCompile (s : Shared) : Shared :=
  { s with cache := { s.cache with compilations := s.cache.compilations + 1 } }

def ensure (s : Shared) (key : Path) : Shared :=
  if key ∈ s.cache.locks then s
  else
    { s with
      cache := { s.cache with locks := s.cache.locks.insert key }
      lockOf := Function.update s.lockOf key s.made
      made := s.made + 1 }

def take (s : Shared) (lock i : Nat) : Shared :=
  { s with holder := Function.update s.holder lock (some i) }

def release (s : Shared) (lock : Nat) : Shared :=
  { s with holder := Function.update s.holder lock none }

def publish (s : Shared) (key : Path) (t : Template) : Shared :=
  { s with cache := { s.cache with templates := (key, t) :: s.cache.templates } }

def retire (s : Shared) (key : Path) (lock : Nat) : Shared :=
  if s.Current key lock then { s with cache := { s.cache with locks := s.cache.locks.erase key } }
    else s

def pop (s : Shared) (key : Path) : Shared :=
  { s with
    cache := { s.cache with
      templates := s.cache.templates.filter fun entry => entry.1 != key } }

def clear (s : Shared) : Shared := { s with cache := s.cache.clear }

end Shared

inductive Move (i : Nat) (s : Shared) : Stage → Deed → Shared → Stage → Prop where
  | callGet (key : Path) : Move i s .idle (.call (.get key)) s (.look key)
  | callInvalidate (key : Path) : Move i s .idle (.call (.invalidate key)) s (.ask key)
  | callClear : Move i s .idle (.call .clear) s .sweep
  | hit {key : Path} {t : Template} :
      s.stored? key = some t → Move i s (.look key) .works s (.found key t)
  | miss {key : Path} : s.stored? key = none → Move i s (.look key) .works s (.request key)
  | countHit {key : Path} {t : Template} :
      Move i s (.found key t) .works s.countHit (.answer (.get key) (.template (.ok t)))
  | request {key : Path} :
      Move i s (.request key) .works (s.ensure key) (.wait key ((s.ensure key).lockOf key) false)
  | acquire {key : Path} {lock : Nat} : s.holder lock = none →
      Move i s (.wait key lock false) .works (s.take lock i) (.holding key lock .recheck)
  | recheckHit {key : Path} {lock : Nat} {t : Template} : s.stored? key = some t →
      Move i s (.holding key lock .recheck) .works s (.holding key lock (.found t))
  | recheckMiss {key : Path} {lock : Nat} : s.stored? key = none →
      Move i s (.holding key lock .recheck) .works s (.holding key lock .confirm)
  | countFound {key : Path} {lock : Nat} {t : Template} :
      Move i s (.holding key lock (.found t)) .works s.countHit (.holding key lock (.leave (.ok t)))
  | current {key : Path} {lock : Nat} : s.Current key lock →
      Move i s (.holding key lock .confirm) .works s (.holding key lock .countMiss)
  | stale {key : Path} {lock : Nat} : ¬s.Current key lock →
      Move i s (.holding key lock .confirm) .works s (.holding key lock .retry)
  | retry {key : Path} {lock : Nat} :
      Move i s (.holding key lock .retry) .works (s.release lock) (.request key)
  | countMiss {key : Path} {lock : Nat} :
      Move i s (.holding key lock .countMiss) .works s.countMiss (.holding key lock .countCompile)
  | countCompile {key : Path} {lock : Nat} :
      Move i s (.holding key lock .countCompile) .works s.countCompile (.holding key lock .start)
  | start {key : Path} {lock : Nat} :
      Move i s (.holding key lock .start) (.starts key) s (.holding key lock .compiling)
  | compiled {key : Path} {lock : Nat} (outcome : Except LoadFault Template) :
      Move i s (.holding key lock .compiling) (.ends key outcome) s
        (.holding key lock (.compiled outcome))
  | publish {key : Path} {lock : Nat} {t : Template} :
      Move i s (.holding key lock (.compiled (.ok t))) .works (s.publish key t)
        (.holding key lock (.leave (.ok t)))
  | retire {key : Path} {lock : Nat} {fault : LoadFault} :
      Move i s (.holding key lock (.compiled (.error fault))) .works (s.retire key lock)
        (.holding key lock (.leave (.error fault)))
  | leave {key : Path} {lock : Nat} {outcome : Except LoadFault Template} :
      Move i s (.holding key lock (.leave outcome)) .works (s.release lock)
        (.answer (.get key) (.template outcome))
  | unlocked {key : Path} : key ∉ s.cache.locks →
      Move i s (.ask key) .works s (.answer (.invalidate key) (.flag (.ok false)))
  | locked {key : Path} :
      key ∈ s.cache.locks → Move i s (.ask key) .works s (.wait key (s.lockOf key) true)
  | acquireDrop {key : Path} {lock : Nat} : s.holder lock = none →
      Move i s (.wait key lock true) .works (s.take lock i) (.holding key lock .pop)
  | pop {key : Path} {lock : Nat} :
      Move i s (.holding key lock .pop) .works (s.pop key)
        (.holding key lock (.popped (s.stored? key).isSome))
  | popped {key : Path} {lock : Nat} {found : Bool} :
      Move i s (.holding key lock (.popped found)) .works (s.release lock)
        (.answer (.invalidate key) (.flag (.ok found)))
  | clear : Move i s .sweep .works s.clear (.answer .clear .done)
  | answer {r : Request} {a : Answer} : Move i s (.answer r a) (.answers r a) s .idle

section Steps
variable {i j : Nat} {s s' : Shared} {stage stage' : Stage} {d : Deed} {key : Path} {lock : Nat}

structure Phase.Assured (i : Nat) (s : Shared) (key : Path) (lock : Nat) (phase : Phase) :
    Prop where
  known : lock < s.made
  held : s.holder lock = some i
  confirmed : phase = .confirm → s.Current key lock → s.stored? key = none
  committed : phase.Committed → s.Current key lock ∧ s.stored? key = none

def Stage.Assured (i : Nat) (s : Shared) : Stage → Prop
  | wait _ lock _ => lock < s.made
  | holding key lock phase => phase.Assured i s key lock
  | _ => True

structure Shared.Sound (s : Shared) : Prop where
  made : ∀ key ∈ s.cache.locks, s.lockOf key < s.made
  locked : s.cache.Locked

/-- What others leave as it is for thread `j`. A lock that it holds stays the one in use, and
nothing is published under it. A lock that is not in use does not come back. -/
structure Relies (j : Nat) (s s' : Shared) : Prop where
  made : s.made ≤ s'.made
  held : ∀ lock, s.holder lock = some j → s'.holder lock = some j
  current : ∀ key lock, s.holder lock = some j → s.Current key lock → s'.Current key lock
  unstored : ∀ key lock, s.holder lock = some j → s.Current key lock → s.stored? key = none →
    s'.stored? key = none
  old : ∀ key lock, lock < s.made → s'.Current key lock → s.Current key lock

/-- Under the same locks nothing is published. -/
theorem Relies.of_same (locks : s'.cache.locks = s.cache.locks) (lockOf : s'.lockOf = s.lockOf)
    (holder : ∀ lock, s.holder lock = some j → s'.holder lock = some j) (made : s'.made = s.made)
    (stored : ∀ key, s.stored? key = none → s'.stored? key = none) : Relies j s s' := by
  have current (key : Path) (lock : Nat) : s'.Current key lock ↔ s.Current key lock := by
    rw [Shared.Current, Shared.Current, locks, lockOf]
  exact ⟨Nat.le_of_eq made.symm, holder, fun key lock _ => (current key lock).2,
    fun key _ _ _ => stored key, fun key lock _ => (current key lock).1⟩

theorem Stage.Assured.relies (h : stage.Assured j s) (relies : Relies j s s') :
    stage.Assured j s' := by
  cases stage with
  | wait key lock dropping => exact Nat.lt_of_lt_of_le h relies.made
  | holding key lock phase =>
    refine ⟨Nat.lt_of_lt_of_le h.known relies.made, relies.held lock h.held,
      fun confirm current => ?_, fun committed => ?_⟩
    · -- the lock may have gone out of use since, but it has not come back
      have before := relies.old key lock h.known current
      exact relies.unstored key lock h.held before (h.confirmed confirm before)
    · obtain ⟨current, unstored⟩ := h.committed committed
      exact ⟨relies.current key lock h.held current,
        relies.unstored key lock h.held current unstored⟩
  | _ => exact trivial

theorem Relies.refl (j : Nat) (s : Shared) : Relies j s s :=
  .of_same rfl rfl (fun _ h => h) rfl fun _ h => h

theorem Shared.Current.ensure (h : s.Current key lock) (other : Path) :
    (s.ensure other).Current key lock := by
  unfold Shared.ensure
  split
  · exact h
  · rename_i absent
    have apart : key ≠ other := fun same => absent (same ▸ h.1)
    exact ⟨List.mem_insert_iff.2 (.inr h.1), (Function.update_of_ne apart ..).trans h.2⟩

/-- Only a new lock comes into use. -/
theorem Shared.Current.of_ensure {other : Path} (h : (s.ensure other).Current key lock)
    (known : lock < s.made) :
    s.Current key lock := by
  unfold Shared.ensure at h
  split at h
  · exact h
  · obtain ⟨mem, named⟩ := h
    dsimp only at named
    by_cases same : key = other
    · subst same
      rw [Function.update_self] at named
      omega
    · rw [Function.update_of_ne same] at named
      exact ⟨(List.mem_insert_iff.1 mem).resolve_left same, named⟩

theorem Relies.ensure (key : Path) : Relies j s (s.ensure key) := by
  refine ⟨?_, fun _ held => ?_, fun _ _ _ h => h.ensure key, fun _ _ _ _ unstored => ?_,
    fun _ _ known h => h.of_ensure known⟩
  all_goals unfold Shared.ensure
  · split
    · exact Nat.le_refl _
    · exact Nat.le_succ _
  · split <;> exact held
  · split <;> exact unstored

theorem Relies.take (free : s.holder lock = none) : Relies j s (s.take lock i) := by
  refine .of_same rfl rfl (fun other held => ?_) rfl fun _ h => h
  have apart : other ≠ lock := by
    rintro rfl
    rw [free] at held
    cases held
  exact (Function.update_of_ne apart ..).trans held

theorem Shared.Current.retire (h : s.Current key lock) {other : Path} {lock' : Nat}
    (apart : key ≠ other) :
    (s.retire other lock').Current key lock := by
  unfold Shared.retire
  split
  · exact ⟨(List.mem_erase_of_ne apart).2 h.1, h.2⟩
  · exact h

/-- Nobody else holds a lock that thread `i` holds. -/
theorem ne_of_held (other : j ≠ i) (held : s.holder lock = some i) {lock' : Nat}
    (held' : s.holder lock' = some j) :
    lock' ≠ lock := by
  rintro rfl
  rw [held] at held'
  exact other (Option.some.inj held').symm

theorem Relies.release (other : j ≠ i) (held : s.holder lock = some i) :
    Relies j s (s.release lock) :=
  .of_same rfl rfl (fun _ held' =>
    (Function.update_of_ne (ne_of_held other held held') ..).trans held') rfl fun _ h => h

theorem Relies.publish (other : j ≠ i) (held : s.holder lock = some i)
    (current : s.Current key lock) (t : Template) : Relies j s (s.publish key t) := by
  refine ⟨Nat.le_refl _,
    fun _ h => h, fun _ _ _ h => h, fun key' lock' held' current' unstored => ?_, fun _ _ _ h => h⟩
  -- a path has one lock in use, and thread `i` holds that of this path
  have apart : key' ≠ key := by
    rintro rfl
    exact ne_of_held other held held' (current'.2.symm.trans current.2)
  exact (Cache.lookup_cons _ key key' t).trans ((if_neg apart).trans unstored)

theorem Relies.retire (other : j ≠ i) (held : s.holder lock = some i)
    (current : s.Current key lock) :
    Relies j s (s.retire key lock) := by
  have retired : s.retire key lock =
      { s with cache := { s.cache with locks := s.cache.locks.erase key } } :=
    if_pos current
  have made : (s.retire key lock).made = s.made := by rw [retired]
  refine ⟨Nat.le_of_eq made.symm,
    fun _ h => ?_, fun key' lock' held' current' => ?_, fun _ _ _ _ h => ?_, fun _ _ _ h => ?_⟩
  · rw [retired]
    exact h
  · have apart : key' ≠ key := by
      rintro rfl
      exact ne_of_held other held held' (current'.2.symm.trans current.2)
    exact current'.retire apart
  · rw [retired]
    exact h
  · rw [retired] at h
    exact ⟨List.mem_of_mem_erase h.1, h.2⟩

/-- What one thread does leaves all others what they count on. -/
theorem Move.relies (m : Move i s stage d s' stage') (assured : stage.Assured i s) (other : j ≠ i) :
    Relies j s s' := by
  cases m with
  | request => exact .ensure _
  | acquire free | acquireDrop free => exact .take free
  | retry | leave | popped => exact .release other assured.held
  | publish => exact .publish other assured.held (assured.committed trivial).1 _
  | retire => exact .retire other assured.held (assured.committed trivial).1
  | @pop key =>
    refine .of_same rfl rfl (fun _ h => h) rfl fun key' unstored => ?_
    refine (Cache.lookup_filter _ key key').trans ?_
    split
    · rfl
    · exact unstored
  | clear => exact .of_same rfl rfl (fun _ h => h) rfl fun _ _ => rfl
  | countHit | countFound | countMiss | countCompile =>
    exact .of_same rfl rfl (fun _ h => h) rfl fun _ h => h
  | _ => exact .refl j s

/-- Nothing more is asked of a thread that only holds its lock. -/
theorem Phase.Assured.plain {phase : Phase} (known : lock < s.made) (held : s.holder lock = some i)
    (unconfirmed : phase ≠ .confirm) (uncommitted : ¬phase.Committed) :
    phase.Assured i s key lock :=
  ⟨known, held, fun confirm => absurd confirm unconfirmed,
    fun committed => absurd committed uncommitted⟩

theorem Shared.Sound.ensure (sound : s.Sound) (key : Path) :
    (s.ensure key).Sound ∧ key ∈ (s.ensure key).cache.locks := by
  unfold Shared.ensure
  split
  · rename_i present
    exact ⟨sound, present⟩
  · refine ⟨⟨fun other mem => ?_, fun other t stored => ?_⟩, List.mem_insert_iff.2 (.inl rfl)⟩
    · by_cases same : other = key
      · subst same
        dsimp only
        rw [Function.update_self]
        exact Nat.lt_succ_self _
      · have before := sound.made other ((List.mem_insert_iff.1 mem).resolve_left same)
        dsimp only
        rw [Function.update_of_ne same]
        exact Nat.lt_succ_of_lt before
    · exact List.mem_insert_iff.2 (.inr (sound.locked other t stored))

/-- A thread can count on what it has to where it comes to stand. -/
theorem Move.assured (m : Move i s stage d s' stage') (assured : stage.Assured i s)
    (sound : s.Sound) :
    stage'.Assured i s' := by
  cases m with
  | callGet | callInvalidate | callClear | hit | miss | countHit | retry | leave | unlocked | popped
  | clear | answer => exact trivial
  | request =>
    obtain ⟨sound', mem⟩ := sound.ensure _
    exact sound'.made _ mem
  | locked mem => exact sound.made _ mem
  | acquire | acquireDrop => exact .plain assured (Function.update_self ..) (by simp) id
  | recheckMiss unstored => exact ⟨assured.known, assured.held, fun _ _ => unstored, False.elim⟩
  | current current =>
    exact ⟨assured.known, assured.held, by simp, fun _ => ⟨current, assured.confirmed rfl current⟩⟩
  | countMiss | countCompile | start | compiled =>
    exact ⟨assured.known, assured.held, by simp, fun _ => assured.committed trivial⟩
  | recheckHit | countFound | stale | publish | pop =>
    exact .plain assured.known assured.held (by simp) id
  | retire =>
    unfold Shared.retire
    split <;> exact .plain assured.known assured.held (by simp) id

/-- What holds of the cache holds after every step. -/
theorem Move.sound (m : Move i s stage d s' stage') (assured : stage.Assured i s)
    (sound : s.Sound) : s'.Sound := by
  cases m with
  | request => exact (sound.ensure _).1
  | @publish key lock t =>
    refine ⟨sound.made, fun other t' stored => ?_⟩
    replace stored := (Cache.lookup_cons _ key other t).symm.trans stored
    by_cases same : other = key
    · exact same ▸ (assured.committed trivial).1.1
    · rw [if_neg same] at stored
      exact sound.locked other t' stored
  | @retire key lock =>
    unfold Shared.retire
    split
    · refine ⟨fun other mem => sound.made other (List.mem_of_mem_erase mem),
        fun other t stored => ?_⟩
      have apart : other ≠ key := by
        rintro rfl
        cases (assured.committed trivial).2.symm.trans stored
      exact (List.mem_erase_of_ne apart).2 (sound.locked other t stored)
    · exact sound
  | @pop key =>
    refine ⟨sound.made, fun other t stored => ?_⟩
    replace stored := (Cache.lookup_filter _ key other).symm.trans stored
    split at stored
    · cases stored
    · exact sound.locked other t stored
  | clear =>
    refine ⟨sound.made, fun other t stored => ?_⟩
    cases stored
  | _ => exact ⟨sound.made, sound.locked⟩

end Steps
end Stencil
