import Stencil.ParseFault
import Stencil.Text.Digit

/-! Integers and number literals as digits. Decimal digits of every script count; a digit outside
positional notation makes a literal that stands for no number. -/
namespace Stencil.Numeral

def ofDigits (digits : List Nat) : Nat := digits.foldl (fun n d => 10 * n + d) 0

def digits? (cs : List Char) : Option (List Nat) := cs.mapM Text.decimalDigit?

def isDecimalDigit (c : Char) : Bool := (Text.decimalDigit? c).isSome

/-- Too many digits are refused before anything else; only digits up to the first wrong one
count. -/
def integer (text : String) : Except NumeralFault Nat :=
  let count := (text.toList.takeWhile isDecimalDigit).length
  if NumeralFault.digitLimit < count then .error (.tooManyDigits count)
  else
    match digits? text.toList with
    | some digits => .ok (ofDigits digits)
    | none => .error (.notAnInteger text)

def integerText? (n : Int) : Option String :=
  if n.natAbs < Nat.pow 10 NumeralFault.digitLimit then some (toString n) else none

/-- The double nearest to `± coefficient · 10 ^ exponent`. Powers of ten beyond a thousand places
around the coefficient make no difference. -/
def decimal (negative : Bool) (coefficient : Nat) (exponent : Int) : Float :=
  let places := (coefficient.log2 : Int) + 1
  let magnitude :=
    if coefficient = 0 then 0
    else if exponent > 1000 then Float.ofScientific 1 false 1000
    else if exponent < -1000 - places then 0
    else Float.ofScientific coefficient (exponent < 0) exponent.natAbs
  if negative then magnitude.neg else magnitude

def float (text : String) : Except NumeralFault Float :=
  let whole := text.toList.takeWhile (· != '.')
  let fraction := text.toList.drop (whole.length + 1)
  match digits? whole, digits? fraction with
  | some w, some f => .ok (decimal false (ofDigits (w ++ f)) (-f.length))
  | _, _ => .error (.notAFloat text)

end Stencil.Numeral
