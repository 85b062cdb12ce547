import Stencil.Proofs.Number.ExactValue
import Stencil.Proofs.Number.Widening

/-! Negation of doubles. The sign changes and nothing else, so the exact value goes to the other
side of zero. -/
namespace Stencil.Binary64
open Float.Model Float.Model.UnpackedFloat

def Parts.neg : Parts → Parts
  | nan => nan
  | infinite negative => infinite !negative
  | finite p => finite ⟨!p.negative, p.mantissa, p.exponent⟩

theorem neg_unpack (s : Sign) (e : BitVec 11) (m : BitVec 52) :
    (UnpackedFloat.unpack .binary64 (packComponents .binary64 s e m)).neg =
      UnpackedFloat.unpack .binary64 (packComponents .binary64 (-s) e m) := by
  unfold UnpackedFloat.unpack
  simp only [unpackMantissa_packComponents, unpackExponent_packComponents,
    unpackSign_packComponents, Sign.ofBitVec_toBitVec]
  split_ifs <;> rfl

/-- Negation changes the sign and nothing else. A NaN stays one. -/
theorem parts_neg (x : Float) : parts x.neg = (parts x).neg := by
  obtain ⟨s, e, m, bits⟩ : ∃ (s : Sign) (e : BitVec 11) (m : BitVec 52),
      x.toBits.toBitVec = packComponents .binary64 s e m :=
    ⟨_, _, _, (@packComponents_unpackSign_unpackExponent_unpackMantissa .binary64
      x.toBits.toBitVec).symm⟩
  have whole : parts x = partsOfBits (packComponents .binary64 s e m).toNat :=
    congrArg (fun b : BitVec 64 => partsOfBits b.toNat) bits
  have negated : parts x.neg =
      partsOfBits (UnpackedFloat.pack .binary64 (UnpackedFloat.unpack .binary64
        (packComponents .binary64 (-s) e m))).toNat := by
    rw [← neg_unpack, ← bits]
    rfl
  rw [whole, negated, pack_unpack, partsOfBits_packComponents]
  by_cases nan : isNaNBits (packComponents .binary64 (-s) e m) = true
  · rw [if_pos nan]
    rw [isNaNBits, decide_eq_true_iff, unpackExponent_packComponents,
      unpackMantissa_packComponents] at nan
    obtain ⟨full, fraction⟩ := nan
    have field : e.toNat = 2047 := congrArg BitVec.toNat full
    have nonzero : m.toNat ≠ 0 := fun zero => fraction (BitVec.eq_of_toNat_eq zero)
    rw [if_pos field, if_neg nonzero]
    rfl
  · have sign : (-s == .negative) = !(s == .negative) := by cases s <;> rfl
    rw [if_neg nan, partsOfBits_packComponents, sign]
    split_ifs <;> rfl

end Stencil.Binary64

namespace Stencil.Extended
open Binary64

theorem ofFloat?_neg {x : Float} {q : Rat} (h : ofFloat? x = some (.finite q)) :
    ofFloat? x.neg = some (.finite (-q)) := by
  unfold ofFloat? at h ⊢
  rw [parts_neg]
  generalize parts x = p at h ⊢
  cases p with
  | nan => cases h
  | infinite negative => cases negative <;> cases h
  | finite p =>
    cases h
    obtain ⟨negative, mantissa, exponent⟩ := p
    simp only [Parts.neg, ofDyadic_eq_value, Finite.value]
    cases negative <;> simp

end Stencil.Extended
