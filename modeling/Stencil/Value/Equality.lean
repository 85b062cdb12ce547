import Stencil.Host.Equality
import Stencil.Value.Stack

/-! When two values are equal. Integers and doubles are compared by their exact values; other values
of different kinds are never equal. An answer is found as far as the stack has room. -/
namespace Stencil.Value

mutual

def same : Value → Value → Bool
  | int m, int n => m == n
  | int m, float y => Extended.ofFloat? y == some (Extended.ofInt m)
  | float x, int n => Extended.ofFloat? x == some (Extended.ofInt n)
  | float x, float y =>
    match Extended.ofFloat? x, Extended.ofFloat? y with
    | some p, some q => p == q
    | _, _ => false
  | null, null => true
  | bool a, bool b => a == b
  | string s, string t => s == t
  | list xs, list ys => sameAll xs ys
  | pair a b, pair c d => same a c && same b d
  | mapping xs, mapping ys => xs.length == ys.length && sameEntries xs ys
  | record r, record s => Record.same r s
  | _, _ => false
termination_by structural x => x

def sameAll : List Value → List Value → Bool
  | [], [] => true
  | x :: xs, y :: ys => same x y && sameAll xs ys
  | _, _ => false
termination_by structural x => x

def sameEntries : List (String × Value) → List (String × Value) → Bool
  | [], _ => true
  | (key, x) :: rest, ys =>
    (match ys.lookup key with
      | some y => same x y
      | none => false) && sameEntries rest ys
termination_by structural x => x

end

mutual

def equalWithin (room : Nat) : Value → Value → Except RenderFault Bool
  | list xs, list ys =>
    if xs.length = ys.length then do
      let inside ← enter room rowFrames
      equalAllWithin inside xs ys
    else .ok false
  | pair a b, pair c d => do
    let inside ← enter room rowFrames
    if ← equalWithin inside a c then equalWithin inside b d else return false
  | mapping xs, mapping ys =>
    if xs.length = ys.length ∧ xs.all (fun e => (ys.lookup e.1).isSome) then do
      let inside ← enter room rowFrames
      equalEntriesWithin inside xs ys
    else .ok false
  | x, y => .ok (same x y)
termination_by structural x => x

def equalAllWithin (room : Nat) : List Value → List Value → Except RenderFault Bool
  | x :: xs, y :: ys => do
    if ← equalWithin room x y then equalAllWithin room xs ys else return false
  | [], _ | _, [] => .ok true
termination_by structural x => x

def equalEntriesWithin (room : Nat) :
    List (String × Value) → List (String × Value) → Except RenderFault Bool
  | [], _ => .ok true
  | (key, x) :: rest, ys =>
    match ys.lookup key with
    | some y => do
      if ← equalWithin room x y then equalEntriesWithin room rest ys else return false
    | none => .ok false
termination_by structural x => x

end

end Stencil.Value
