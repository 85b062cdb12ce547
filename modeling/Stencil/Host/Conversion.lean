import Stencil.Host.KeyText
import Stencil.RenderFault

/-! Host data as template values: lists and tuples become lists, keys become texts, numbers of any
precision become doubles, dates and identifiers become texts. Records stay what they are. -/
namespace Stencil

namespace Host

def keyName (key : Host) : Except RenderFault String :=
  if key.isWritable then .ok key.keyText else .error .integerTooLong

mutual

def toValue : Host → Except RenderFault Value
  | null => .ok .null
  | bool b => .ok (.bool b)
  | int n => do
    let n ← checkInteger .conversion n
    return .int n
  | float x => .ok (.float x)
  | string s => .ok (.string s)
  | pair a b => do
    let first ← toValue a
    let second ← toValue b
    return .pair first second
  | record r => .ok (.record r)
  | mapping entries => do
    let converted ← toEntries [] entries
    return .mapping converted
  | list items => do
    let converted ← toValues items
    return .list converted
  | tuple items => do
    let converted ← toValues items
    return .list converted
  | decimal d =>
    match d.toFloat? with
    | some x => .ok (.float x)
    | none => .error .signalingNaN
  | date d => .ok (.string d.text)
  | datetime t => .ok (.string (t.text "T"))
  | uuid u => .ok (.string u.text)
  | standIn _ value => toValue value
  | provider face _ => .error (.mismatch .templateValue face.typeName (some .conversion))
  | method _ => .error (.mismatch .templateValue "method" (some .conversion))
  | unsupported face => .error (.mismatch .templateValue face.typeName (some .conversion))

def toValues : List Host → Except RenderFault (List Value)
  | [] => .ok []
  | x :: rest => do
    let first ← toValue x
    let others ← toValues rest
    return first :: others

/-- Keys that become the same text share one entry, at the place of the first and with the value of
the last. -/
def toEntries (done : List (String × Value)) :
    List (Host × Host) → Except RenderFault (List (String × Value))
  | [] => .ok done
  | (key, x) :: rest => do
    let name ← keyName key
    let value ← toValue x
    toEntries (Value.insert done name value) rest

end

end Host

end Stencil
