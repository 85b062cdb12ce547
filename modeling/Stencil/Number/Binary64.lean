/-! Double precision numbers taken apart: sign, mantissa and a power of two. Everything exact about
them (order, rounding, remainder, text) starts from these parts. -/
namespace Stencil

structure Binary64.Finite where
  negative : Bool
  mantissa : Nat
  exponent : Int
  deriving DecidableEq, Repr

inductive Binary64.Parts where
  | nan
  | infinite (negative : Bool)
  | finite (x : Binary64.Finite)
  deriving DecidableEq, Repr

namespace Binary64

def leastExponent : Int := -1074

def hiddenBit : Nat := Nat.pow 2 52

def partsOfBits (bits : Nat) : Parts :=
  let negative := bits / Nat.pow 2 63 % 2 == 1
  let field : Nat := bits / hiddenBit % Nat.pow 2 11
  let fraction : Nat := bits % hiddenBit
  if field = 2047 then
    if fraction = 0 then .infinite negative else .nan
  else if field = 0 then .finite ⟨negative, fraction, leastExponent⟩
  else .finite ⟨negative, hiddenBit + fraction, (field : Int) - 1075⟩

def parts (x : Float) : Parts := partsOfBits x.toBits.toNat

/-- The double `± mantissa · 2 ^ exponent` for a mantissa below `2 ^ 53` and an exponent not below
the least one. -/
def ofParts (negative : Bool) (mantissa : Nat) (exponent : Int) : Float :=
  let sign := if negative then Nat.pow 2 63 else 0
  -- the places by which the mantissa is moved up to full precision
  let lift := min (52 - mantissa.log2) (exponent - leastExponent).toNat
  let full := mantissa * Nat.pow 2 lift
  let field := if full < hiddenBit then 0 else (exponent - lift - leastExponent).toNat + 1
  Float.ofBits (UInt64.ofNat (sign + field * hiddenBit + full % hiddenBit))

end Binary64
end Stencil
