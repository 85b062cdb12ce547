import Stencil.Host.Conversion
import Stencil.Value.Display

/-! Host data looked at as if it were a template value already. Tuples pass for lists, mappings may
have keys of any kind; what has no kind of its own is refused. -/
namespace Stencil.Host

def kind? : Host → Option Value.Kind
  | null => some .null
  | bool _ => some .boolean
  | int _ => some .integer
  | float _ => some .float
  | string _ => some .string
  | pair .. => some .pair
  | tuple _ => some .list
  | mapping _ => some .mapping
  | record _ => some .record
  | _ => none

def kind (x : Host) : Except RenderFault Value.Kind :=
  match x.kind? with
  | some k => .ok k
  | none => .error (.mismatch .templateValue x.typeName none)

def kindName (x : Host) : String := ((x.kind?).map Value.Kind.text).getD x.typeName

def truthy (x : Host) : Except RenderFault Bool :=
  match x with
  | null => .ok false
  | bool b => .ok b
  | int n => .ok (n != 0)
  | float y => .ok (!Binary64.isZero y)
  | string s => .ok (!s.isEmpty)
  | tuple items => .ok (!items.isEmpty)
  | mapping entries => .ok (!entries.isEmpty)
  | x => x.kind.map fun _ => true

mutual

def display (room : Nat) : Host → Except RenderFault String
  | null => Value.display room .null
  | bool b => Value.display room (.bool b)
  | int n => Value.display room (.int n)
  | float x => Value.display room (.float x)
  | string s => Value.display room (.string s)
  | record r => Value.display room (.record r)
  | tuple items => do
    let inside ← Value.enter room Value.rowFrames
    let parts ← displayAll inside items
    return "[" ++ ", ".intercalate parts ++ "]"
  | pair a b => do
    let inside ← Value.enter room Value.pairFrames
    let first ← display inside a
    let second ← display inside b
    return s!"({first}, {second})"
  | mapping entries => do
    let inside ← Value.enter room Value.rowFrames
    let parts ← displayEntries inside entries
    return "\x7b" ++ ", ".intercalate parts ++ "\x7d"
  | x => .error (.mismatch .templateValue x.typeName none)

def displayAll (room : Nat) : List Host → Except RenderFault (List String)
  | [] => .ok []
  | x :: rest => do
    let first ← display room x
    let others ← displayAll room rest
    return first :: others

def displayEntries (room : Nat) : List (Host × Host) → Except RenderFault (List String)
  | [] => .ok []
  | (key, x) :: rest => do
    let name ← keyName key
    let shown ← display room x
    let others ← displayEntries room rest
    return s!"{name}: {shown}" :: others

end

end Stencil.Host
