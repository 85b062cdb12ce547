import Stencil.RenderFault
import Stencil.Text.Removal

/-! The arithmetic operators. Integers stay integers and must fit 64 bits; with a double on either
side both become doubles. Texts and lists can be joined and repeated, and a text can be removed from
a text. -/
namespace Stencil.Value

def repeated {α : Type} (count : Int) (xs : List α) : List α :=
  if xs.isEmpty then [] else (List.replicate count.toNat xs).flatten

def repeatedText (count : Int) (s : String) : String :=
  if s.isEmpty then "" else String.join (List.replicate count.toNat s)

def intArithmetic (op : Operator) (m n : Int) : Except RenderFault Int :=
  match op with
  | .add => checkInteger (.operator op) (m + n)
  | .subtract => checkInteger (.operator op) (m - n)
  | .multiply => checkInteger (.operator op) (m * n)
  | .divide =>
    if n = 0 then .error (.divisionByZero op) else
      checkInteger (.operator op) (Integer.quotient m n)
  | _ =>
    if n = 0 then .error (.divisionByZero op) else
      checkInteger (.operator op) (Integer.remainder m n)

def floatArithmetic (op : Operator) (x y : Float) : Except RenderFault Float :=
  match op with
  | .add => .ok (x + y)
  | .subtract => .ok (x - y)
  | .multiply => .ok (x * y)
  | .divide => if Binary64.isZero y then .error (.divisionByZero op) else .ok (x / y)
  | _ =>
    if Binary64.isZero y then .error (.divisionByZero op)
    else
      match Binary64.remainder? x y with
      | some r => .ok r
      | none => .error .undefinedRemainder

def widened (n : Int) : Except RenderFault Float :=
  match Integer.toFloat? n with
  | some x => .ok x
  | none => .error .integerTooLarge

def repetitions (n : Int) : Except RenderFault Int :=
  if n ≤ Integer.greatest then .ok n else .error .repetitionTooLarge

def sequenceArithmetic (op : Operator) (x y : Value) : Except RenderFault Value :=
  match op, x, y with
  | .add, string s, string t => .ok (string (s ++ t))
  | .add, list xs, list ys => .ok (list (xs ++ ys))
  | .subtract, string s, string t => .ok (string (String.ofList (Text.remove t.toList s.toList)))
  | .multiply, string s, int n => (repetitions n).map fun count => string (repeatedText count s)
  | .multiply, int n, string s => (repetitions n).map fun count => string (repeatedText count s)
  | .multiply, list xs, int n => (repetitions n).map fun count => list (repeated count xs)
  | .multiply, int n, list xs => (repetitions n).map fun count => list (repeated count xs)
  | _, _, _ =>
    .error (.mismatch .numbers s!"{x.kind.text} {op.text} {y.kind.text}" (some (.operator op)))

def arithmetic (op : Operator) (x y : Value) : Except RenderFault Value :=
  match x, y with
  | int m, int n => do
    let r ← intArithmetic op m n
    return int r
  | int m, float y => do
    let x ← widened m
    let r ← floatArithmetic op x y
    return float r
  | float x, int n => do
    let y ← widened n
    let r ← floatArithmetic op x y
    return float r
  | float x, float y => do
    let r ← floatArithmetic op x y
    return float r
  | x, y => sequenceArithmetic op x y

end Stencil.Value
