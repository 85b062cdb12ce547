import Stencil.GlobalFunction
import Stencil.Operation
import Stencil.Proofs.Outcome
import Stencil.Proofs.Value.Frames
import Stencil.Value.Arithmetic
import Stencil.Value.Order

/-! Faults of depth come from the nesting of a template alone: no operation on values, no function
and no reading of a record ends in one. -/
namespace Stencil

def Shallow {α : Type} (r : Except RenderFault α) : Prop :=
  ∀ limit position, r ≠ .error (.tooDeep limit position)

namespace Shallow
variable {α β : Type}

@[simp] theorem ok (a : α) : Shallow (.ok a) := nofun

@[simp] theorem error_iff (fault : RenderFault) :
    Shallow (.error fault : Except RenderFault α) ↔
      ∀ limit position, fault ≠ .tooDeep limit position := by
  simp [Shallow]

theorem bind {x : Except RenderFault α} {f : α → Except RenderFault β} (hx : Shallow x)
    (hf : ∀ a, Shallow (f a)) : Shallow (x >>= f) := by
  cases x with
  | ok a => exact hf a
  | error fault => simpa using hx

theorem map {x : Except RenderFault α} (f : α → β) (hx : Shallow x) : Shallow (x.map f) := by
  cases x with
  | ok a => simp
  | error fault => simpa using hx

end Shallow

theorem checkInteger_shallow (place : RenderFault.Place) (n : Int) :
    Shallow (checkInteger place n) := by
  unfold checkInteger RenderFault.tooWide
  repeat' split
  all_goals simp

namespace Host

theorem keyName_shallow (key : Host) : Shallow key.keyName := by
  unfold keyName
  split <;> simp

mutual

theorem toValue_shallow (x : Host) : Shallow x.toValue := by
  cases x with
  | null | bool | float | string | record | date | datetime | uuid | provider | method
  | unsupported => simp [toValue]
  | int n => exact (checkInteger_shallow .conversion n).bind fun n => .ok _
  | pair a b => exact (toValue_shallow a).bind fun _ => (toValue_shallow b).bind fun _ => .ok _
  | mapping entries => exact (toEntries_shallow [] entries).bind fun _ => .ok _
  | list items => exact (toValues_shallow items).bind fun _ => .ok _
  | tuple items => exact (toValues_shallow items).bind fun _ => .ok _
  | decimal d =>
    simp only [toValue]
    split <;> simp
  | standIn name value => exact toValue_shallow value

theorem toValues_shallow (xs : List Host) : Shallow (toValues xs) := by
  cases xs with
  | nil => simp [toValues]
  | cons x rest =>
    exact (toValue_shallow x).bind fun _ => (toValues_shallow rest).bind fun _ => .ok _

theorem toEntries_shallow (done : List (String × Value)) (entries : List (Host × Host)) :
    Shallow (toEntries done entries) := by
  cases entries with
  | nil => simp [toEntries]
  | cons entry rest =>
    obtain ⟨key, x⟩ := entry
    exact (keyName_shallow key).bind fun _ => (toValue_shallow x).bind fun _ =>
      toEntries_shallow _ rest

end

end Host

namespace Record

theorem isVisible_shallow (fields : List (String × Host)) (allowed : Option (List String))
    (attributes : List (String × Host)) (name : String) :
    Shallow (isVisible fields allowed attributes name) := by
  unfold isVisible
  split
  · simp
  · simp
  · split
    · simp
    · unfold allows
      split <;> simp

theorem wrap_shallow (site : Site) (related : Related) : Shallow (wrap site related) := by
  unfold wrap
  split <;> simp

theorem builtin_shallow (typeName : String) (allowed : Option (List String)) (name : String) :
    Shallow (builtin typeName allowed name) := by
  unfold builtin
  repeat' split
  all_goals simp

theorem fieldOf_shallow (typeName : String) (fields : List (String × Host))
    (allowed : Option (List String)) (attributes : List (String × Host)) (name : String) :
    Shallow (fieldOf typeName fields allowed attributes name) := by
  refine (isVisible_shallow _ _ _ _).bind fun visible => ?_
  repeat' split
  · exact .map _ (Host.toValue_shallow _)
  · exact .map _ (builtin_shallow _ _ _)
  · simp

theorem field?_shallow (site : Site) (r : Record) (name : String) :
    Shallow (r.field? site name) := by
  unfold field?
  split
  · split
    · exact .map _ (Host.toValue_shallow _)
    · exact fieldOf_shallow _ _ _ _ _
  · split
    · exact .map _ (Host.toValue_shallow _)
    · simp
  · simp
  · repeat' split
    · exact .map _ (Host.toValue_shallow _)
    · exact .map _ (wrap_shallow _ _)
    · simp
    · simp

end Record

namespace Value

theorem enter_shallow (room frames : Nat) : Shallow (enter room frames) := by
  unfold enter
  split <;> simp

theorem equalWithin_shallow (room : Nat) (x y : Value) : Shallow (x.equalWithin room y) := by
  rcases Nat.lt_or_ge room (x.comparedFrames y) with short | enough
  · rw [(equalWithin_needs x y).full short]
    simp
  · rw [(equalWithin_needs x y).fits enough]
    simp

mutual

theorem display_shallow (room : Nat) (v : Value) : Shallow (v.display room) := by
  cases v with
  | null | bool | int | float | string | record => simp [display]
  | list items =>
    exact (enter_shallow _ _).bind fun inside => (displayAll_shallow inside items).bind
      fun _ => .ok _
  | pair a b =>
    refine (enter_shallow _ _).bind fun inside => ?_
    exact (display_shallow inside a).bind fun _ => (display_shallow inside b).bind fun _ => .ok _
  | mapping entries =>
    exact (enter_shallow _ _).bind fun inside => (displayEntries_shallow inside entries).bind
      fun _ => .ok _

theorem displayAll_shallow (room : Nat) (items : List Value) : Shallow (displayAll room items) := by
  cases items with
  | nil => simp [displayAll]
  | cons v rest =>
    exact (display_shallow room v).bind fun _ => (displayAll_shallow room rest).bind fun _ => .ok _

theorem displayEntries_shallow (room : Nat) (entries : List (String × Value)) :
    Shallow (displayEntries room entries) := by
  cases entries with
  | nil => simp [displayEntries]
  | cons entry rest =>
    obtain ⟨key, v⟩ := entry
    exact (display_shallow room v).bind fun _ => (displayEntries_shallow room rest).bind
      fun _ => .ok _

end

end Value

namespace Operation

theorem integerOf_shallow (called : String) (x : Float) (r : Except RenderFault.NoInteger Int) :
    Shallow (integerOf called x r) := by
  unfold integerOf
  split <;> simp

theorem apply_shallow (o : Operation) (called : String) (v : Value) :
    Shallow (o.apply called v) := by
  unfold apply
  split
  all_goals first
    | exact integerOf_shallow _ _ _
    | exact .map _ (Value.display_shallow _ _)
    | (repeat' split) <;> simp

theorem checkResult_shallow (called : String) (v : Value) : Shallow (checkResult called v) := by
  unfold checkResult
  split
  · exact .map _ (checkInteger_shallow _ _)
  · simp

theorem call_shallow (v : Value) (name : String) (args : List Value) :
    Shallow (call v name args) := by
  unfold call
  split
  · simp
  · split
    · exact (apply_shallow _ _ _).bind (checkResult_shallow _)
    · simp

end Operation

namespace Value

theorem member_shallow (site : Site) (v : Value) (name : String) (args : List Value) :
    Shallow (v.member site name args) := by
  unfold member
  split
  · exact Operation.call_shallow _ _ _
  · split
    · simp
    · split
      · split <;> simp
      · refine (Record.field?_shallow _ _ _).bind fun found => ?_
        split <;> simp
      · simp

theorem index_shallow (v : Value) (i : Int) : Shallow (v.index i) := by
  unfold index atIndex
  repeat' split
  all_goals simp

theorem ordered_shallow (op : Operator) (x y : Value) : Shallow (x.ordered op y) := by
  unfold ordered
  repeat' split
  all_goals simp

theorem intArithmetic_shallow (op : Operator) (m n : Int) : Shallow (intArithmetic op m n) := by
  unfold intArithmetic
  repeat' split
  all_goals first
    | exact checkInteger_shallow _ _
    | simp

theorem floatArithmetic_shallow (op : Operator) (x y : Float) :
    Shallow (floatArithmetic op x y) := by
  unfold floatArithmetic
  repeat' split
  all_goals simp

theorem widened_shallow (n : Int) : Shallow (widened n) := by
  unfold widened
  split <;> simp

theorem repetitions_shallow (n : Int) : Shallow (repetitions n) := by
  unfold repetitions
  split <;> simp

theorem sequenceArithmetic_shallow (op : Operator) (x y : Value) :
    Shallow (sequenceArithmetic op x y) := by
  unfold sequenceArithmetic
  split
  all_goals first
    | exact .map _ (repetitions_shallow _)
    | simp

theorem arithmetic_shallow (op : Operator) (x y : Value) : Shallow (x.arithmetic op y) := by
  unfold arithmetic
  split
  · exact (intArithmetic_shallow _ _ _).bind fun _ => .ok _
  · exact (widened_shallow _).bind fun _ => (floatArithmetic_shallow _ _ _).bind fun _ => .ok _
  · exact (widened_shallow _).bind fun _ => (floatArithmetic_shallow _ _ _).bind fun _ => .ok _
  · exact (floatArithmetic_shallow _ _ _).bind fun _ => .ok _
  · exact sequenceArithmetic_shallow _ _ _

end Value

namespace GlobalFunction

theorem apply_shallow (g : Globals) (f : GlobalFunction) (args : List Value) :
    Shallow (f.apply g args) := by
  unfold apply
  split
  · refine .map _ ?_
    unfold NumberToken.encrypt RenderFault.tooWide
    repeat' split
    all_goals simp
  · simp
  · refine .map _ ?_
    unfold NumberToken.decrypt
    repeat' split
    all_goals simp
  · simp
  · simp
  · split <;> simp

theorem call_shallow (g : Globals) (name : String) (args : List Value) :
    Shallow (call g name args) := by
  unfold call
  split
  · exact apply_shallow _ _ _
  · simp

end GlobalFunction

end Stencil
