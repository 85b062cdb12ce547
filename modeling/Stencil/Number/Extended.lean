import Stencil.Number.Binary64

/-! Exact values of numbers: rationals and the two infinities. Integers and doubles are compared
through them, so no integer is rounded on the way. -/
namespace Stencil

inductive Extended where
  | negInfinity
  | finite (q : Rat)
  | posInfinity
  deriving DecidableEq

namespace Extended

def lt : Extended → Extended → Bool
  | negInfinity, negInfinity => false
  | negInfinity, _ => true
  | finite p, finite q => p < q
  | finite _, posInfinity => true
  | _, _ => false

def le : Extended → Extended → Bool
  | negInfinity, _ => true
  | finite p, finite q => p ≤ q
  | _, posInfinity => true
  | _, _ => false

theorem le_eq_lt_or_eq (x y : Extended) : le x y = (lt x y || decide (x = y)) := by
  cases x <;> cases y <;> simp [le, lt]
  rename_i p q
  rw [Bool.eq_iff_iff]
  simp [Rat.le_iff_lt_or_eq]

def ofDyadic (x : Binary64.Finite) : Rat :=
  let signed : Int := if x.negative then -x.mantissa else x.mantissa
  match x.exponent with
  | .ofNat e => mkRat (signed * Int.pow 2 e) 1
  | .negSucc e => mkRat signed (Nat.pow 2 (e + 1))

def ofInt (n : Int) : Extended := .finite n

def ofFloat? (x : Float) : Option Extended :=
  match Binary64.parts x with
  | .nan => none
  | .infinite true => some .negInfinity
  | .infinite false => some .posInfinity
  | .finite x => some (.finite (ofDyadic x))

end Extended

namespace Rounding

def truncate (q : Rat) : Int := if q < 0 then q.ceil else q.floor

/-- The nearest integer; a half goes away from zero. -/
def nearest (q : Rat) : Int :=
  if q < 0 then -((-q + mkRat 1 2).floor) else (q + mkRat 1 2).floor

example : nearest (mkRat 5 2) = 3 ∧ nearest (mkRat (-5) 2) = -3 ∧ nearest (mkRat 12 5) = 2 := by
  decide +kernel

end Rounding
end Stencil
