import Stencil.Number.Extended
import Stencil.Number.Shortest

/-! Doubles as text. -/
namespace Stencil

/-- How the digits of a double are laid out: positional while the exponent of the first digit is at
least `positionalFrom` and below `positionalBelow`, else with an exponent of its own. -/
structure FloatLayout where
  positionalFrom : Int
  positionalBelow : Int
  exponentWidth : Nat
  nan : String
  infinity : String

namespace FloatLayout

def written : FloatLayout := ⟨-4, 16, 2, "nan", "inf"⟩

def zeros (n : Nat) : String := String.ofList (List.replicate n '0')

def signed (negative : Bool) (s : String) : String := if negative then "-" ++ s else s

def exponentText (width : Nat) (e : Int) : String :=
  let digits := toString e.natAbs
  (if e < 0 then "e-" else "e+") ++ zeros (width - digits.length) ++ digits

/-- Digits with the point after `before` of them; a whole number keeps one zero behind the point. -/
def positional (digits : List Char) (before : Int) : String :=
  if before ≤ 0 then "0." ++ zeros (-before).toNat ++ String.ofList digits
  else
    let whole := digits.take before.toNat
    let fraction := digits.drop before.toNat
    String.ofList whole ++ zeros (before.toNat - whole.length) ++ "." ++
      (if fraction.isEmpty then "0" else String.ofList fraction)

def scientific (l : FloatLayout) (digits : List Char) (exponent : Int) : String :=
  let fraction := digits.drop 1
  String.ofList (digits.take 1) ++
    (if fraction.isEmpty then "" else "." ++ String.ofList fraction) ++
    exponentText l.exponentWidth exponent

def dropTrailingZeros (digits : List Char) : List Char :=
  (digits.reverse.dropWhile (· == '0')).reverse

def finite (l : FloatLayout) (x : Binary64.Finite) : String :=
  signed x.negative <|
    if x.mantissa = 0 then "0.0"
    else
      let (coefficient, power) := Shortest.decimal x.mantissa x.exponent
      let digits := (toString coefficient).toList
      let exponent := power + digits.length - 1
      if l.positionalFrom ≤ exponent ∧ exponent < l.positionalBelow then
        positional (dropTrailingZeros digits) (exponent + 1)
      else scientific l (dropTrailingZeros digits) exponent

def text (l : FloatLayout) (x : Float) : String :=
  match Binary64.parts x with
  | .nan => l.nan
  | .infinite negative => signed negative l.infinity
  | .finite x => finite l x

end FloatLayout

def displayFloat (x : Float) : String :=
  match Extended.ofFloat? x with
  | none => "NaN"
  | some .posInfinity => "inf"
  | some .negInfinity => "-inf"
  | some (.finite q) => if q.den = 1 then toString q.num else FloatLayout.written.text x

end Stencil
