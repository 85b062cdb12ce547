import Stencil.RenderFault

/-! The order of numbers and of texts. Integers and doubles are compared by their exact values,
texts by code points. -/
namespace Stencil.Value

def textLess : List Char → List Char → Bool
  | _, [] => false
  | [], _ :: _ => true
  | c :: cs, d :: ds => c < d || (c == d && textLess cs ds)

def textLessEqual (s t : List Char) : Bool := !textLess t s

/-- A comparison of two numbers or of two texts. A NaN compares false with every number. -/
def compareNumbers (onNumbers : Extended → Extended → Bool) (x y : Value) : Bool :=
  match x.number?, y.number? with
  | some p, some q => onNumbers p q
  | _, _ => false

def isNumber : Value → Bool
  | int _ => true
  | float _ => true
  | _ => false

def ordered (op : Operator) (x y : Value) : Except RenderFault Bool :=
  match x, y with
  | string s, string t =>
    .ok <|
      match op with
      | .less => textLess s.toList t.toList
      | .lessEqual => textLessEqual s.toList t.toList
      | .greater => textLess t.toList s.toList
      | _ => textLessEqual t.toList s.toList
  | _, _ =>
    if x.isNumber && y.isNumber then
      .ok <|
        match op with
        | .less => compareNumbers Extended.lt x y
        | .lessEqual => compareNumbers Extended.le x y
        | .greater => compareNumbers Extended.lt y x
        | _ => compareNumbers Extended.le y x
    else
      .error (.mismatch .comparable s!"{x.kind.text} and {y.kind.text}" (some (.operator op)))

end Stencil.Value
