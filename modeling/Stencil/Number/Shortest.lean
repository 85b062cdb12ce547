import Stencil.Number.Binary64

/-! The shortest decimal of a positive double: the fewest digits that read back as the same double,
and of those the nearest to its value.

A decimal reads back when it lies between the midpoints to the two neighbouring doubles, the
midpoints included if the mantissa is even. For each number of digits only the two points of the
decimal grid next to the value can be nearest. -/
namespace Stencil.Shortest

structure Interval where
  low : Nat
  value : Nat
  high : Nat
  scale : Nat
  closed : Bool

/-- Below a power of two the neighbour is only half as far away. -/
def interval (mantissa : Nat) (exponent : Int) : Interval :=
  let near := mantissa = Binary64.hiddenBit ∧ exponent ≠ Binary64.leastExponent
  let quarter := exponent - 2
  let up := Nat.pow 2 quarter.toNat
  ⟨(4 * mantissa - if near then 1 else 2) * up, 4 * mantissa * up, (4 * mantissa + 2) * up,
    Nat.pow 2 (-quarter).toNat, mantissa % 2 == 0⟩

def Interval.holds (i : Interval) (digits : Nat) (power : Int) : Bool :=
  let point := digits * Nat.pow 10 power.toNat * i.scale
  let unit := Nat.pow 10 (-power).toNat
  if i.closed then i.low * unit ≤ point && point ≤ i.high * unit
  else i.low * unit < point && point < i.high * unit

def Interval.below (i : Interval) (power : Int) : Nat :=
  i.value * Nat.pow 10 (-power).toNat / (Nat.pow 10 power.toNat * i.scale)

/-- Of the grid points next to the value the one that reads back; of two the nearer one, and the
even one when both are equally near. -/
def Interval.pick? (i : Interval) (power : Int) : Option Nat :=
  let down := i.below power
  match i.holds down power, i.holds (down + 1) power with
  | false, false => none
  | true, false => some down
  | false, true => some (down + 1)
  | true, true =>
    -- twice the value against the sum of both points
    let twice := 2 * i.value * Nat.pow 10 (-power).toNat
    let sum := (2 * down + 1) * Nat.pow 10 power.toNat * i.scale
    if twice < sum then some down
    else if sum < twice then some (down + 1)
    else some (if down % 2 = 0 then down else down + 1)

/-- The number of places before the decimal point, found from an estimate that is at most two too
small. -/
def Interval.magnitude (i : Interval) (estimate : Int) : Int :=
  let reaches (e : Int) : Bool := Nat.pow 10 e.toNat * i.scale ≤ i.value * Nat.pow 10 (-e).toNat
  if reaches (estimate + 2) then estimate + 3
  else if reaches (estimate + 1) then estimate + 2
  else if reaches estimate then estimate + 1
  else estimate

def search (i : Interval) (magnitude : Int) : Nat → Nat → Nat × Int
  | 0, _ => (0, 0)
  | tries + 1, count =>
    let power := magnitude - count
    match i.pick? power with
    | some digits => (digits, power)
    | none => search i magnitude tries (count + 1)

def mostDigits : Nat := 17

def decimal (mantissa : Nat) (exponent : Int) : Nat × Int :=
  let i := interval mantissa exponent
  -- 1233 / 4096 is a little less than the logarithm of two to base ten
  let estimate := (exponent + mantissa.log2) * 1233 / 4096
  search i (i.magnitude (estimate - 1)) mostDigits 1

example : decimal Binary64.hiddenBit (-52) = (1, 0) ∧ decimal 1 (-1074) = (5, -324) := by
  decide +kernel

end Stencil.Shortest
