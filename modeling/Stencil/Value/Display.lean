import Stencil.Number.FloatText
import Stencil.Value.Stack

/-! The text of a value on a page, if the stack has room for what is inside it. Records have
none. -/
namespace Stencil.Value

mutual

def display (room : Nat) : Value → Except RenderFault String
  | null => .ok ""
  | bool b => .ok (if b then "true" else "false")
  | int n => .ok (toString n)
  | float x => .ok (displayFloat x)
  | string s => .ok s
  | list items => do
    let inside ← enter room rowFrames
    let parts ← displayAll inside items
    return "[" ++ ", ".intercalate parts ++ "]"
  | pair a b => do
    let inside ← enter room pairFrames
    let first ← display inside a
    let second ← display inside b
    return s!"({first}, {second})"
  | mapping entries => do
    let inside ← enter room rowFrames
    let parts ← displayEntries inside entries
    return "\x7b" ++ ", ".intercalate parts ++ "\x7d"
  | record _ => .error (.mismatch .displayable (Kind.text .record) none)

def displayAll (room : Nat) : List Value → Except RenderFault (List String)
  | [] => .ok []
  | v :: rest => do
    let first ← display room v
    let others ← displayAll room rest
    return first :: others

def displayEntries (room : Nat) : List (String × Value) → Except RenderFault (List String)
  | [] => .ok []
  | (key, v) :: rest => do
    let shown ← display room v
    let others ← displayEntries room rest
    return s!"{key}: {shown}" :: others

end

end Stencil.Value
