import Stencil.Number.FloatText
import Stencil.RenderFault

/-! Checks of numbers that meet any other value. -/
namespace Stencil.Value

def typeName : Value → String
  | null => "NoneType" | bool _ => "bool" | int _ => "int" | float _ => "float" | string _ => "str"
  | list _ => "tuple" | pair .. => "Pair" | mapping _ => "mappingproxy" | record r => r.typeName

def fitsRange (x : Float) : Bool :=
  match Extended.ofFloat? x with
  | some q => Extended.le (.ofInt Integer.least) q && Extended.le q (.ofInt Integer.greatest)
  | none => false

def checkRange (place : RenderFault.Place) (v : Value) : Except RenderFault Value :=
  match v with
  | int n => (checkInteger place n).map int
  | float x =>
    if fitsRange x then .ok v else
      .error (.mismatch .integer64 (FloatLayout.written.text x) (some place))
  | bool _ => .ok v
  | v => .error (.notComparable v.typeName)

def floatText (v : Value) : Except RenderFault String :=
  match v with
  | float x => .ok (displayFloat x)
  | int n =>
    if (Integer.toFloat? n).isSome then .error (.absentField v.typeName "is_integer")
    else .error .integerTooLarge
  | bool _ => .error (.absentField v.typeName "is_integer")
  | v => .error (.notReal v.typeName)

end Stencil.Value
