import Stencil.Proofs.Cache.Alone

/-! What no interleaving of threads can break: a path is never compiled twice at a time, a lock goes
only with a failure under it, and while nothing is given up a path is compiled once for all. -/
namespace Stencil

section Moves
variable {i : Nat} {s s' : Shared} {stage stage' : Stage} {d : Deed} {key : Path} {lock : Nat}
    {t : Template}

inductive Stage.Brings (key : Path) (t : Template) : Stage → Prop where
  | found : Brings key t (.found key t)
  | rechecked {lock : Nat} : Brings key t (.holding key lock (.found t))
  | compiled {lock : Nat} : Brings key t (.holding key lock (.compiled (.ok t)))
  | leave {lock : Nat} : Brings key t (.holding key lock (.leave (.ok t)))
  | answer : Brings key t (.answer (.get key) (.template (.ok t)))

inductive Stage.Drops : Stage → Prop where
  | ask (key : Path) : Drops (.ask key)
  | wait (key : Path) (lock : Nat) : Drops (.wait key lock true)
  | pop (key : Path) (lock : Nat) : Drops (.holding key lock .pop)
  | sweep : Drops .sweep

/-- The lock of a path goes only with a failure under it. -/
theorem Move.gives_up (m : Move i s stage d s' stage') (before : s.Current key lock)
    (after : ¬s'.Current key lock) :
    ∃ fault, stage = .holding key lock (.compiled (.error fault)) := by
  cases m with
  | request => exact absurd (before.ensure _) after
  | @retire other lock' fault =>
    by_cases same : key = other
    · subst same
      by_cases current : s.Current key lock'
      · exact ⟨fault, by rw [before.2.symm.trans current.2]⟩
      · rw [Shared.retire, if_neg current] at after
        exact absurd before after
    · exact absurd (before.retire same) after
  | _ => exact absurd before after

theorem Move.of_compiled {outcome : Except LoadFault Template}
    (m : Move i s stage d s' (.holding key lock (.compiled outcome))) : d = .ends key outcome := by
  cases m with
  | compiled => rfl

theorem Move.of_ends {outcome : Except LoadFault Template}
    (m : Move i s stage (.ends key outcome) s' stage') :
    s' = s ∧ ∃ lock, stage = .holding key lock .compiling ∧
    stage' = .holding key lock (.compiled outcome) := by
  cases m with
  | compiled => exact ⟨rfl, _, rfl, rfl⟩

theorem Move.of_answers (m : Move i s stage (.answers (.get key) (.template (.ok t))) s' stage') :
    stage.Brings key t := by
  cases m with
  | answer => exact .answer

/-- A template at hand was so before, or it was stored, or it has just been compiled. -/
theorem Move.of_brings (m : Move i s stage d s' stage') (h : stage'.Brings key t) :
    stage.Brings key t ∨ s.stored? key = some t ∨ d = .ends key (.ok t) := by
  cases m with
  | hit stored =>
    cases h
    exact .inr (.inl stored)
  | recheckHit stored =>
    cases h
    exact .inr (.inl stored)
  | countHit =>
    cases h
    exact .inl .found
  | countFound =>
    cases h
    exact .inl .rechecked
  | publish =>
    cases h
    exact .inl .compiled
  | leave =>
    cases h
    exact .inl .leave
  | compiled =>
    cases h
    exact .inr (.inr rfl)
  | _ => cases h

/-- What is stored was so before, or a thread had it at hand. -/
theorem Move.of_stored (m : Move i s stage d s' stage') (h : s'.stored? key = some t) :
    s.stored? key = some t ∨ stage.Brings key t := by
  cases m with
  | request =>
    unfold Shared.ensure at h
    split at h <;> exact .inl h
  | @publish other lock u =>
    replace h := (Cache.lookup_cons _ other key u).symm.trans h
    split at h
    · rename_i same
      subst same
      cases h
      exact .inr .compiled
    · exact .inl h
  | retire =>
    unfold Shared.retire at h
    split at h <;> exact .inl h
  | @pop other =>
    replace h := (Cache.lookup_filter _ other key).symm.trans h
    split at h
    · cases h
    · exact .inl h
  | clear => cases h
  | _ => exact .inl h

/-- What is stored stays so, unless a thread gives it up. -/
theorem Move.keeps (m : Move i s stage d s' stage') (h : s.stored? key = some t)
    (kept : ¬stage.Drops) :
    ∃ u, s'.stored? key = some u := by
  cases m with
  | request =>
    unfold Shared.ensure
    split <;> exact ⟨t, h⟩
  | @publish other lock u =>
    have stored := Cache.lookup_cons s.cache.templates other key u
    split at stored
    · exact ⟨u, stored⟩
    · exact ⟨t, stored.trans h⟩
  | retire =>
    unfold Shared.retire
    split <;> exact ⟨t, h⟩
  | pop => exact absurd (.pop ..) kept
  | clear => exact absurd .sweep kept
  | _ => exact ⟨t, h⟩

/-- What has been compiled is published. -/
theorem Move.publishes (m : Move i s (.holding key lock (.compiled (.ok t))) d s' stage') :
    s'.stored? key = some t := by
  cases m with
  | publish => exact (Cache.lookup_cons _ key key t).trans (if_pos rfl)

/-- A thread comes to give things up by a request. -/
theorem Move.of_drops (m : Move i s stage d s' stage') (h : stage'.Drops) :
    stage.Drops ∨ ∃ r, d = .call r ∧ ∀ key, r ≠ .get key := by
  cases m with
  | callInvalidate key => exact .inr ⟨_, rfl, by simp⟩
  | callClear => exact .inr ⟨_, rfl, by simp⟩
  | locked => exact .inl (.ask _)
  | acquireDrop => exact .inl (.wait ..)
  | _ => cases h

end Moves

structure Threads where
  shared : Shared
  stage : Nat → Stage
  history : List (Nat × Deed)

namespace Threads

def start (base : File.Base) : Threads :=
  ⟨⟨.empty false base, fun _ => 0, fun _ => none, 0⟩, fun _ => .idle, []⟩

inductive Step (i : Nat) (w : Threads) : Threads → Prop where
  | move {d : Deed} {s : Shared} {stage : Stage} : Move i w.shared (w.stage i) d s stage →
      Step i w ⟨s, Function.update w.stage i stage, (i, d) :: w.history⟩

/-- Whatever can come of any number of threads in any order. -/
inductive Reachable (base : File.Base) : Threads → Prop where
  | start : Reachable base (start base)
  | step {i : Nat} {w w' : Threads} : Reachable base w → Step i w w' → Reachable base w'

structure Safe (w : Threads) : Prop where
  assured : ∀ i, (w.stage i).Assured i w.shared
  sound : w.shared.Sound
  compiled : ∀ i key lock outcome, w.stage i = .holding key lock (.compiled outcome) →
    w.history.lookup i = some (.ends key outcome)

variable {base : File.Base} {w w' : Threads} {i : Nat}

theorem Safe.step (safe : w.Safe) (h : Step i w w') : w'.Safe := by
  cases h with
  | @move d s stage m =>
    have assured := safe.assured i
    refine ⟨fun j => ?_, m.sound assured safe.sound, fun j key lock outcome at_compiled => ?_⟩
    · dsimp only
      by_cases same : j = i
      · subst same
        rw [Function.update_self]
        exact m.assured assured safe.sound
      · rw [Function.update_of_ne same]
        exact (safe.assured j).relies (m.relies assured same)
    · dsimp only at at_compiled ⊢
      by_cases same : j = i
      · subst same
        rw [Function.update_self] at at_compiled
        subst at_compiled
        rw [m.of_compiled, List.lookup_cons_self]
      · rw [Function.update_of_ne same] at at_compiled
        have apart : (j == i) = false := by simpa using same
        rw [List.lookup_cons, apart]
        exact safe.compiled j key lock outcome at_compiled

/-- One thread may do much while all others rest. -/
theorem Reachable.course {deeds : List Deed} {s : Shared} {stage : Stage} (h : Reachable base w)
    (course : Course i w.shared (w.stage i) deeds s stage) :
    Reachable base ⟨s, Function.update w.stage i stage,
      deeds.map (fun d => (i, d)) ++ w.history⟩ := by
  induction course with
  | stay => rwa [Function.update_eq_self]
  | @go _ s' s'' stage' stage'' d _ m reached =>
    have here : Move i s' (Function.update w.stage i stage' i) d s'' stage'' := by
      rwa [Function.update_self]
    have next := reached.step (.move here)
    rwa [Function.update_idem] at next

theorem Safe.start (base : File.Base) : (start base).Safe := by
  refine ⟨fun _ => trivial, ⟨fun key mem => ?_, fun key t stored => ?_⟩,
    fun i key lock outcome at_compiled => ?_⟩
  · cases mem
  · cases stored
  · cases at_compiled

theorem Reachable.safe (h : Reachable base w) : w.Safe := by
  induction h with
  | start => exact .start base
  | step _ next safe => exact safe.step next

/-- At any time one thread at most is committed to a path. -/
theorem Safe.same_thread (safe : w.Safe) {j : Nat} {key : Path} {lock lock' : Nat}
    {phase phase' : Phase} (hi : w.stage i = .holding key lock phase) (committed : phase.Committed)
    (hj : w.stage j = .holding key lock' phase') (committed' : phase'.Committed) : i = j := by
  have first := safe.assured i
  have second := safe.assured j
  rw [hi] at first
  rw [hj] at second
  obtain rfl : lock = lock' :=
    (first.committed committed).1.2.symm.trans (second.committed committed').1.2
  exact Option.some.inj (first.held.symm.trans second.held)

section Once

def compiledTo (key : Path) (history : List (Nat × Deed)) : List Template :=
  history.filterMap fun e =>
    match e.2 with
    | .ends other (.ok t) => if other = key then some t else none
    | _ => none

def OnlyGets (history : List (Nat × Deed)) : Prop :=
  ∀ i r, (i, Deed.call r) ∈ history → ∃ key, r = .get key

/-- Each path was compiled once at most, and its template is the only one that is anywhere. -/
structure Once (w : Threads) : Prop where
  keeps : ∀ i, ¬(w.stage i).Drops
  brings : ∀ i key t, (w.stage i).Brings key t → compiledTo key w.history = [t]
  stored : ∀ key t, w.shared.stored? key = some t → compiledTo key w.history = [t]
  answered : ∀ i key t, (i, Deed.answers (.get key) (.template (.ok t))) ∈ w.history →
    compiledTo key w.history = [t]
  kept : ∀ key, compiledTo key w.history ≠ [] → (∃ t, w.shared.stored? key = some t) ∨
    ∃ i lock t, w.stage i = .holding key lock (.compiled (.ok t))

variable {d : Deed} {s : Shared} {stage : Stage} {key : Path} {t : Template}

theorem compiledTo_ends (i : Nat) (key : Path) (t : Template) (history : List (Nat × Deed)) :
    compiledTo key ((i, .ends key (.ok t)) :: history) = t :: compiledTo key history := by
  simp [compiledTo]

theorem compiledTo_other (i : Nat) (history : List (Nat × Deed)) (h : ∀ t, d ≠ .ends key (.ok t)) :
    compiledTo key ((i, d) :: history) = compiledTo key history := by
  unfold compiledTo
  rw [List.filterMap_cons_none]
  cases d with
  | ends other outcome =>
    cases outcome with
    | error fault => rfl
    | ok t =>
      have apart : other ≠ key := by
        rintro rfl
        exact h t rfl
      exact if_neg apart
  | _ => rfl

/-- While a path is being compiled it has not been compiled yet. -/
theorem Once.uncompiled (safe : w.Safe) (once : w.Once) {lock : Nat}
    (h : w.stage i = .holding key lock .compiling) :
    compiledTo key w.history = [] := by
  have assured := safe.assured i
  rw [h] at assured
  by_contra some
  rcases once.kept key some with ⟨t, stored⟩ | ⟨j, lock', t, publishing⟩
  · cases (assured.committed trivial).2.symm.trans stored
  · obtain rfl := safe.same_thread h trivial publishing trivial
    cases h.symm.trans publishing

/-- A template that was the only one of its path is so afterwards. -/
theorem Once.carry (safe : w.Safe) (once : w.Once) (m : Move i w.shared (w.stage i) d s stage)
    (h : compiledTo key w.history = [t]) : compiledTo key ((i, d) :: w.history) = [t] := by
  by_cases ended : ∃ u, d = .ends key (.ok u)
  · obtain ⟨u, rfl⟩ := ended
    obtain ⟨-, lock, compiling, -⟩ := m.of_ends
    rw [once.uncompiled safe compiling] at h
    cases h
  · rw [compiledTo_other i _ fun u same => ended ⟨u, same⟩, h]

theorem Once.compiled (safe : w.Safe) (once : w.Once)
    (m : Move i w.shared (w.stage i) (.ends key (.ok t)) s stage) :
    compiledTo key ((i, .ends key (.ok t)) :: w.history) = [t] := by
  obtain ⟨-, lock, compiling, -⟩ := m.of_ends
  rw [compiledTo_ends, once.uncompiled safe compiling]

/-- A path that was compiled was compiled once. -/
theorem Once.unique (once : w.Once) (h : compiledTo key w.history ≠ []) :
    ∃ t, compiledTo key w.history = [t] := by
  rcases once.kept key h with ⟨t, stored⟩ | ⟨i, lock, t, publishing⟩
  · exact ⟨t, once.stored key t stored⟩
  · exact ⟨t, once.brings i key t (publishing ▸ .compiled)⟩

theorem Once.step (safe : w.Safe) (once : w.Once) (h : Step i w w') (gets : OnlyGets w'.history) :
    w'.Once := by
  cases h with
  | @move d s stage m =>
    refine ⟨fun j => ?_,
      fun j key t brings => ?_, fun key t stored => ?_, fun j key t mem => ?_, fun key some => ?_⟩
    all_goals dsimp only at *
    · by_cases same : j = i
      · subst same
        rw [Function.update_self]
        -- only a request that is not for a template leads there
        intro drops
        rcases m.of_drops drops with before | ⟨r, rfl, other⟩
        · exact once.keeps j before
        · obtain ⟨key, rfl⟩ := gets j r (List.mem_cons_self ..)
          exact other key rfl
      · rw [Function.update_of_ne same]
        exact once.keeps j
    · by_cases same : j = i
      · subst same
        rw [Function.update_self] at brings
        rcases m.of_brings brings with before | stored | rfl
        · exact once.carry safe m (once.brings j key t before)
        · exact once.carry safe m (once.stored key t stored)
        · exact once.compiled safe m
      · rw [Function.update_of_ne same] at brings
        exact once.carry safe m (once.brings j key t brings)
    · rcases m.of_stored stored with before | brings
      · exact once.carry safe m (once.stored key t before)
      · exact once.carry safe m (once.brings i key t brings)
    · rcases List.mem_cons.1 mem with now | before
      · cases now
        exact once.carry safe m (once.brings i key t m.of_answers)
      · exact once.carry safe m (once.answered j key t before)
    · -- between the end of a compile and its publication only the thread has the template
      by_cases ended : ∃ t, d = .ends key (.ok t)
      · obtain ⟨t, rfl⟩ := ended
        obtain ⟨-, lock, -, compiled⟩ := m.of_ends
        exact .inr ⟨i, lock, t, by rw [Function.update_self, compiled]⟩
      · rw [compiledTo_other i _ fun t same => ended ⟨t, same⟩] at some
        rcases once.kept key some with ⟨t, stored⟩ | ⟨j, lock, t, publishing⟩
        · exact .inl (m.keeps stored (once.keeps i))
        · by_cases same : j = i
          · subst same
            rw [publishing] at m
            exact .inl ⟨t, m.publishes⟩
          · exact .inr ⟨j, lock, t, by rw [Function.update_of_ne same, publishing]⟩

theorem Once.start (base : File.Base) : (start base).Once := by
  refine ⟨fun i drops => ?_,
    fun i key t brings => ?_, fun key t stored => ?_, fun i key t mem => ?_, fun key some =>
    absurd rfl some⟩
  · cases drops
  · cases brings
  · cases stored
  · cases mem

theorem Reachable.once (h : Reachable base w) (gets : OnlyGets w.history) : w.Once := by
  induction h with
  | start => exact .start base
  | step before next ih =>
    have earlier : OnlyGets _ :=
      fun i r mem => gets i r (by cases next; exact List.mem_cons_of_mem _ mem)
    exact (ih earlier).step before.safe next gets

end Once

/-- However many threads work on a cache in whatever order: no path is compiled twice at a time, all
that is stored has a lock, a lock goes only by the thread that holds it and has just failed under
it, and while templates are only asked for, each path is compiled once at most and to the one
template that all are given. -/
theorem Reachable.exclusive (h : Reachable base w) :
    (∀ i j key lock lock', w.stage i = .holding key lock .compiling →
      w.stage j = .holding key lock' .compiling →
      i = j) ∧
    w.shared.cache.Locked ∧
    (∀ i w', Step i w w' → ∀ key lock, w.shared.Current key lock → ¬w'.shared.Current key lock →
      w.shared.holder lock = some i ∧
        ∃ fault, w.history.lookup i = some (.ends key (.error fault))) ∧
    (OnlyGets w.history → ∀ key, (compiledTo key w.history).length ≤ 1 ∧
      ∀ i t, (i, Deed.answers (.get key) (.template (.ok t))) ∈ w.history →
        compiledTo key w.history = [t]) := by
  have safe := h.safe
  refine ⟨fun i j key lock lock' hi hj => safe.same_thread hi trivial hj trivial, safe.sound.locked,
    fun i w' next key lock before after => ?_,
      fun gets key => ⟨?_, fun i t => (h.once gets).answered i key t⟩⟩
  · cases next with
    | move m =>
      obtain ⟨fault, failed⟩ := m.gives_up before after
      have assured := safe.assured i
      rw [failed] at assured
      exact ⟨assured.held, fault, safe.compiled i key lock _ failed⟩
  · by_cases none : compiledTo key w.history = []
    · simp [none]
    · obtain ⟨t, only⟩ := (h.once gets).unique none
      simp [only]

/-- Two threads ask for one path. The first fails to compile it while the second waits for its lock;
the second finds this lock given up, comes by a new one and compiles the path itself. -/
theorem Reachable.exclusive_race : ∃ w t fault, Reachable ⟨.top, ""⟩ w ∧
    (0, Deed.answers (.get .top) (.template (.error fault))) ∈ w.history ∧
    (1, Deed.answers (.get .top) (.template (.ok t))) ∈ w.history ∧
    compiledTo .top w.history = [t] ∧
    w.shared.cache.Locked := by
  let t : Template := ⟨⟨[]⟩, none⟩
  let fault : LoadFault := .unreadable .top .isDirectory
  have starts := (@Reachable.start ⟨.top, ""⟩).course (i := 0) <|
    Course.stay.go (.callGet .top) |>.go (.miss rfl)
    |>.go .request |>.go (.acquire rfl) |>.go (.recheckMiss rfl) |>.go
      (.current (Shared.current_ensure _ _))
    |>.go .countMiss |>.go .countCompile |>.go .start
  have waits :=
    starts.course (i := 1) <| Course.stay.go (.callGet .top) |>.go (.miss rfl) |>.go .request
  have fails :=
    waits.course (i := 0) <| Course.stay.go (.compiled (.error fault)) |>.go .retire |>.go .leave
    |>.go .answer
  have retries := fails.course (i := 1) <| Course.stay.go (.acquire rfl) |>.go (.recheckMiss rfl)
    |>.go (.stale (by decide)) |>.go .retry
  have compiles :=
    retries.course (i := 1) <| Course.stay.go .request |>.go (.acquire rfl) |>.go (.recheckMiss rfl)
    |>.go (.current (Shared.current_ensure _ _)) |>.go .countMiss |>.go .countCompile |>.go .start
    |>.go (.compiled (.ok t)) |>.go .publish |>.go .leave |>.go .answer
  obtain ⟨-, locked, -, once⟩ := compiles.exclusive
  refine ⟨_, t, fault, compiles, by simp, by simp,
    (once (fun i r mem => ⟨.top, ?_⟩) .top).2 1 t (by simp), locked⟩
  have told : i = 1 ∧ r = .get .top ∨ i = 0 ∧ r = .get .top := by simpa [Threads.start] using mem
  exact told.elim And.right And.right

end Threads
end Stencil
