import Stencil.Number.Numeral
import Stencil.Number.FloatText
import Stencil.Text.Blank

/-! Decimal numbers of any precision, as host data may hold them. Integers and doubles are decimals
too, so numbers of all these kinds are compared as decimals. -/
namespace Stencil

inductive Decimal where
  | finite (negative : Bool) (coefficient : Nat) (exponent : Int)
  | infinite (negative : Bool)
  | nan (negative signaling : Bool) (payload : String)
  deriving DecidableEq, Repr

namespace Decimal

def toFloat? : Decimal → Option Float
  | finite negative coefficient exponent => some (Numeral.decimal negative coefficient exponent)
  | infinite negative => some (if negative then -(1 / 0) else 1 / 0)
  | nan _ true _ => none
  | nan _ false _ => some (0 / 0)

def ofInt (n : Int) : Decimal := finite (n < 0) n.natAbs 0

/-- The exact value of a double: halves are fives in the next place. -/
def ofFloat (x : Float) : Decimal :=
  match Binary64.parts x with
  | .nan => nan false false ""
  | .infinite negative => infinite negative
  | .finite ⟨negative, mantissa, .ofNat e⟩ => finite negative (mantissa * Nat.pow 2 e) 0
  | .finite ⟨negative, mantissa, .negSucc e⟩ =>
    finite negative (mantissa * Nat.pow 5 (e + 1)) (.negSucc e)

def trimmed (coefficient : Nat) (exponent : Int) : Nat × Int :=
  let digits := (toString coefficient).toList
  let kept := FloatLayout.dropTrailingZeros digits
  (coefficient / Nat.pow 10 (digits.length - kept.length),
    exponent + (digits.length - kept.length : Nat))

/-- Equality of values. Zero has no sign, and a NaN equals nothing. -/
def same : Decimal → Decimal → Bool
  | finite s m e, finite t n f => (m == 0 && n == 0) || (s == t && trimmed m e == trimmed n f)
  | infinite s, infinite t => s == t
  | _, _ => false

example : same (finite false 150 (-2)) (ofFloat 1.5) ∧
    same (finite true 1 20) (ofInt (-100000000000000000000)) := by
  decide +kernel

/-- Digits with the point or the exponent that their scale asks for: positional while the exponent
is not positive and at most six zeros follow the point. -/
def text : Decimal → String
  | infinite negative => FloatLayout.signed negative "Infinity"
  | nan negative signaling payload =>
    FloatLayout.signed negative ((if signaling then "sNaN" else "NaN") ++ payload)
  | finite negative coefficient exponent =>
    let digits := (toString coefficient).toList
    let before := exponent + digits.length
    let point := if exponent ≤ 0 ∧ -6 < before then before else 1
    let body :=
      if point ≤ 0 then "0." ++ FloatLayout.zeros (-point).toNat ++ String.ofList digits
      else if point < digits.length then
        String.ofList (digits.take point.toNat) ++ "." ++ String.ofList (digits.drop point.toNat)
      else String.ofList digits
    let scale := before - point
    let tail := if scale = 0 then "" else if scale < 0 then s!"E-{scale.natAbs}" else s!"E+{scale}"
    FloatLayout.signed negative (body ++ tail)

def mantissa? (cs : List Char) : Option (Nat × Nat) :=
  let whole := cs.takeWhile (· != '.')
  let fraction := cs.drop (whole.length + 1)
  match Numeral.digits? whole, Numeral.digits? fraction with
  | some w, some f =>
    if w.isEmpty && f.isEmpty then none else some (Numeral.ofDigits (w ++ f), f.length)
  | _, _ => none

def splitSign : List Char → Bool × List Char
  | '-' :: rest => (true, rest)
  | '+' :: rest => (false, rest)
  | cs => (false, cs)

def signedDigits? (cs : List Char) : Option Int :=
  let (negative, digits) := splitSign cs
  if digits.isEmpty then none
  else (Numeral.digits? digits).map fun ds =>
    if negative then -Numeral.ofDigits ds else Numeral.ofDigits ds

/-- Reads an integer of at most as many digits as a literal may have, with blanks around it and
single underscores between its digits. -/
def integerOfText? (cs : List Char) : Option Int :=
  let text := Text.trim cs
  let groups := (String.ofList (splitSign text).2).splitOn "_"
  let count := (text.filter Numeral.isDecimalDigit).length
  if groups.any String.isEmpty || NumeralFault.digitLimit < count then none
  else signedDigits? (text.filter (· != '_'))

def payload? (cs : List Char) : Option String :=
  (Numeral.digits? cs).map fun ds =>
    if Numeral.ofDigits ds = 0 then "" else toString (Numeral.ofDigits ds)

/-- Reads a decimal: digits with an optional point and exponent, an infinity or a NaN, in any case
of letters, underscores and the blanks around it ignored. -/
def ofText? (s : String) : Option Decimal :=
  let (negative, body) := splitSign ((Text.trim s.toList).filter (· != '_'))
  let small := body.map Char.toLower
  if small = "inf".toList ∨ small = "infinity".toList then some (infinite negative)
  else if "nan".toList.isPrefixOf small then (payload? (small.drop 3)).map (nan negative false)
  else if "snan".toList.isPrefixOf small then (payload? (small.drop 4)).map (nan negative true)
  else
    let digits := small.takeWhile (· != 'e')
    let power :=
      if digits.length = small.length then some 0
      else signedDigits? (small.drop (digits.length + 1))
    match mantissa? digits, power with
    | some (coefficient, places), some e => some (finite negative coefficient (e - places))
    | _, _ => none

end Decimal
end Stencil
