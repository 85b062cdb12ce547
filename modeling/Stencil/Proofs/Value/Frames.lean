import Stencil.Expr.Eval

/-! What a value takes of the stack when it is written or compared. A walk through a value has an
outcome of its own, and gets to it if there is room; else the stack is full. -/
namespace Stencil.Value

/-- The walk comes to `a` wherever there is room for so many frames. -/
structure Needs {α : Type} (need : Nat) (a : α) (walk : Nat → Except RenderFault α) : Prop where
  fits {room : Nat} : need ≤ room → walk room = .ok a
  full {room : Nat} : room < need → walk room = .error .stackFull

section Needs
variable {α β : Type} {a : α} {b : β} {m n : Nat} {f : Nat → Except RenderFault α}

theorem Needs.ok (a : α) : Needs 0 a fun _ => .ok a := ⟨fun _ => rfl, nofun⟩

theorem Needs.enter (inside : Needs n a f) (frames : Nat) :
    Needs (frames + n) a fun room => enter room frames >>= f where
  fits {room} enough := by
    rw [Value.enter, if_pos (by omega)]
    exact inside.fits (by omega)
  full {room} short := by
    unfold Value.enter
    by_cases here : frames ≤ room
    · rw [if_pos here]
      exact inside.full (by omega)
    · rw [if_neg here]
      rfl

theorem Needs.bind {k : α → Nat → Except RenderFault β} (first : Needs m a f)
    (second : Needs n b (k a)) :
    Needs (max m n) b fun room => f room >>= fun a => k a room where
  fits {room} enough := by
    rw [first.fits (by omega)]
    exact second.fits (by omega)
  full {room} short := by
    by_cases here : m ≤ room
    · rw [first.fits here]
      exact second.full (by omega)
    · rw [first.full (by omega)]
      rfl

theorem Needs.map (first : Needs m a f) (k : α → β) :
    Needs m (k a) fun room => f room >>= fun a => .ok (k a) where
  fits enough := by
    rw [first.fits enough]
    rfl
  full short := by
    rw [first.full short]
    rfl

/-- What follows a test is left out where the test fails. -/
theorem Needs.test {p q : Bool} {f g : Nat → Except RenderFault Bool} (first : Needs m p f)
    (second : Needs n q g) :
    Needs (if p then max m n else m)
      (p && q) fun room => do if ← f room then g room else return false := by
  cases p with
  | true => exact first.bind (k := fun p room => if p then g room else .ok false) second
  | false =>
    have rest : Needs 0 false fun _ : Nat => (.ok false : Except RenderFault Bool) := .ok false
    have both := first.bind (k := fun p room => if p then g room else .ok false) rest
    rwa [Nat.max_eq_left m.zero_le] at both

end Needs

mutual

def writtenFrames : Value → Nat
  | list items => rowFrames + writtenFramesAll items
  | pair a b => pairFrames + max (writtenFrames a) (writtenFrames b)
  | mapping entries => rowFrames + writtenFramesEntries entries
  | null | bool _ | int _ | float _ | string _ | record _ => 0

def writtenFramesAll : List Value → Nat
  | [] => 0
  | v :: rest => max (writtenFrames v) (writtenFramesAll rest)

def writtenFramesEntries : List (String × Value) → Nat
  | [] => 0
  | (_, v) :: rest => max (writtenFrames v) (writtenFramesEntries rest)

end

mutual

def comparedFrames : Value → Value → Nat
  | list xs, list ys => if xs.length = ys.length then rowFrames + comparedFramesAll xs ys else 0
  | pair a b, pair c d =>
    rowFrames +
      if same a c then max (comparedFrames a c) (comparedFrames b d) else comparedFrames a c
  | mapping xs, mapping ys =>
    if xs.length = ys.length ∧ xs.all (fun e => (ys.lookup e.1).isSome) then
      rowFrames + comparedFramesEntries xs ys
    else 0
  | _, _ => 0
termination_by structural x => x

def comparedFramesAll : List Value → List Value → Nat
  | x :: xs, y :: ys =>
    if same x y then max (comparedFrames x y) (comparedFramesAll xs ys) else comparedFrames x y
  | _, _ => 0
termination_by structural x => x

def comparedFramesEntries : List (String × Value) → List (String × Value) → Nat
  | [], _ => 0
  | (key, x) :: rest, ys =>
    match ys.lookup key with
    | some y =>
      if same x y then max (comparedFrames x y) (comparedFramesEntries rest ys)
      else comparedFrames x y
    | none => 0
termination_by structural x => x

end

theorem sameAll_of_length {xs ys : List Value} (h : xs.length ≠ ys.length) :
    sameAll xs ys = false := by
  induction xs generalizing ys with
  | nil => cases ys with
    | nil => exact absurd rfl h
    | cons => rfl
  | cons x xs ih => cases ys with
    | nil => rfl
    | cons y ys => rw [sameAll, ih (by simpa using h), Bool.and_false]

theorem sameEntries_of_keys {xs ys : List (String × Value)}
    (h : ¬xs.all (fun e => (ys.lookup e.1).isSome) = true) : sameEntries xs ys = false := by
  induction xs with
  | nil => exact absurd rfl h
  | cons e rest ih =>
    obtain ⟨key, x⟩ := e
    rw [sameEntries]
    cases found : ys.lookup key with
    | none => rfl
    | some y =>
      rw [ih, Bool.and_false]
      simpa [found] using h

mutual

theorem equalWithin_needs (x y : Value) :
    Needs (x.comparedFrames y) (x.same y) fun room => x.equalWithin room y := by
  cases x with
  | list xs =>
    cases y with
    | list ys =>
      by_cases size : xs.length = ys.length
      · simp only [comparedFrames, equalWithin, same, if_pos size]
        exact (equalAllWithin_needs xs ys size).enter rowFrames
      · have apart : same (list xs) (list ys) = false := sameAll_of_length size
        simp only [comparedFrames, equalWithin, if_neg size, apart]
        exact .ok false
    | null | bool | int | float | string | pair | mapping | record => exact .ok _
  | pair a b =>
    cases y with
    | pair c d =>
      simp only [comparedFrames, equalWithin, same]
      exact ((equalWithin_needs a c).test (equalWithin_needs b d)).enter rowFrames
    | null | bool | int | float | string | list | mapping | record => exact .ok _
  | mapping xs =>
    cases y with
    | mapping ys =>
      by_cases keys : xs.length = ys.length ∧ xs.all (fun e => (ys.lookup e.1).isSome)
      · simp only [comparedFrames, equalWithin, same, if_pos keys, beq_iff_eq.2 keys.1,
          Bool.true_and]
        exact (equalEntriesWithin_needs xs ys keys.2).enter rowFrames
      · have apart : same (mapping xs) (mapping ys) = false := by
          rw [same, Bool.and_eq_false_iff]
          by_cases size : xs.length = ys.length
          · exact .inr (sameEntries_of_keys fun all => keys ⟨size, all⟩)
          · exact .inl (beq_eq_false_iff_ne.2 size)
        simp only [comparedFrames, equalWithin, if_neg keys, apart]
        exact .ok false
    | null | bool | int | float | string | list | pair | record => exact .ok _
  | null | bool | int | float | string | record => exact .ok _

theorem equalAllWithin_needs (xs ys : List Value) (size : xs.length = ys.length) :
    Needs (comparedFramesAll xs ys) (sameAll xs ys) fun room => equalAllWithin room xs ys := by
  cases xs with
  | nil =>
    cases ys with
    | nil => exact .ok true
    | cons => cases size
  | cons x xs =>
    cases ys with
    | nil => cases size
    | cons y ys =>
      simp only [comparedFramesAll, equalAllWithin, sameAll]
      exact (equalWithin_needs x y).test (equalAllWithin_needs xs ys (Nat.succ.inj size))

theorem equalEntriesWithin_needs (xs ys : List (String × Value))
    (keys : xs.all (fun e => (ys.lookup e.1).isSome) = true) :
    Needs (comparedFramesEntries xs ys)
      (sameEntries xs ys) fun room => equalEntriesWithin room xs ys := by
  cases xs with
  | nil => exact .ok true
  | cons e rest =>
    obtain ⟨key, x⟩ := e
    obtain ⟨first, others⟩ := List.forall_mem_cons.1 (List.all_eq_true.1 keys)
    obtain ⟨y, found⟩ := Option.isSome_iff_exists.1 first
    simp only [comparedFramesEntries, equalEntriesWithin, sameEntries, found]
    exact (equalWithin_needs x y).test
      (equalEntriesWithin_needs rest ys (List.all_eq_true.2 others))

end

end Stencil.Value
