import Stencil.Number.Extended

/-! Arithmetic of 64-bit integers and of doubles. -/
namespace Stencil

namespace Integer

def least : Int := -Int.pow 2 63
def greatest : Int := Int.pow 2 63 - 1

def fits (n : Int) : Bool := least ≤ n && n ≤ greatest

theorem fits_iff (n : Int) : fits n = true ↔ -Int.pow 2 63 ≤ n ∧ n < Int.pow 2 63 := by
  unfold fits least greatest
  rw [Bool.and_eq_true, decide_eq_true_iff, decide_eq_true_iff]
  omega

/-- The sizes are divided, and the sign is put to what comes out: truncated towards zero. -/
def quotient (m n : Int) : Int :=
  let size : Int := (m.natAbs / n.natAbs : Nat)
  if decide (m < 0) != decide (n < 0) then -size else size

def remainder (m n : Int) : Int := m - n * quotient m n

def toFloat? (n : Int) : Option Float :=
  let x := Float.ofInt n
  match Binary64.parts x with
  | .finite _ => some x
  | _ => none

end Integer

namespace Binary64

/-- The remainder of the division of two finite numbers, with the sign of the dividend; it is
exact. -/
def finiteRemainder (x y : Finite) : Float :=
  let exponent := min x.exponent y.exponent
  let a := x.mantissa * Nat.pow 2 (x.exponent - exponent).toNat
  let b := y.mantissa * Nat.pow 2 (y.exponent - exponent).toNat
  ofParts x.negative (a % b) exponent

def isZero (x : Float) : Bool :=
  match parts x with
  | .finite x => x.mantissa == 0
  | _ => false

def remainder? (x y : Float) : Option Float :=
  match parts x, parts y with
  | .nan, _ => some x
  | _, .nan => some y
  | .infinite _, _ => none
  | .finite _, .infinite _ => some x
  | .finite a, .finite b => some (finiteRemainder a b)

end Binary64
end Stencil
