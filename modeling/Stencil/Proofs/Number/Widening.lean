import Mathlib
import Stencil.Number.Arithmetic

/-! Integers of 64 bits as doubles. Each of them becomes a finite double, and none but zero becomes
zero. -/
namespace Stencil.Binary64
open Float.Model Float.Model.UnpackedFloat

inductive Full (low high : Int) : UnpackedFloat → Prop where
  | mk (sign : Sign) {mantissa : Nat} {exponent : Int} (positive : 0 < mantissa) :
      2 ^ 52 ≤ mantissa → mantissa < 2 ^ 53 → low ≤ exponent → exponent ≤ high →
      Full low high (.finite sign mantissa exponent positive)

variable {low high : Int} {u : UnpackedFloat}

theorem Full.mono {low' high' : Int} (h : Full low high u) (hl : low' ≤ low) (hh : high ≤ high') :
    Full low' high' u := by
  cases h with
  | mk sign positive least most above below =>
    exact .mk sign positive least most (hl.trans above) (below.trans hh)

theorem Full.neg (h : Full low high u) : Full low high u.neg := by
  cases h with
  | mk sign positive least most above below => exact .mk (-sign) positive least most above below

section Round

theorem log2_eq {m k : Nat} (least : 2 ^ k ≤ m) (most : m < 2 ^ (k + 1)) : m.log2 = k := by
  have positive : m ≠ 0 := (Nat.lt_of_lt_of_le (Nat.two_pow_pos k) least).ne'
  have above := (Nat.le_log2 positive).2 least
  have below := (Nat.log2_lt positive).2 most
  omega

theorem mantissa_shift (em : ExtendedMantissa) (n : Nat) :
    (em >>> n).mantissa = em.mantissa / 2 ^ n := by
  change (n.repeat ExtendedMantissa.shiftRightOne em).mantissa = _
  induction n with
  | zero => simp [Nat.repeat]
  | succ n ih =>
    rw [Nat.repeat, ExtendedMantissa.shiftRightOne, ih, Nat.div_div_eq_div_mul, Nat.pow_succ]

/-- Rounding moves a mantissa by one at most. -/
theorem roundedMantissa_bounds (em : ExtendedMantissa) :
    em.mantissa ≤ em.roundedMantissa ∧ em.roundedMantissa ≤ em.mantissa + 1 := by
  obtain ⟨m, round, sticky⟩ := em
  unfold ExtendedMantissa.roundedMantissa
  cases round <;> cases sticky <;>
    simp only [ExtendedMantissa.accuracy, Accuracy.roundToNearestEven] <;> omega

/-- The exponent that gives a number of at least 53 bits a mantissa of 53 bits. -/
theorem targetExponent_eq {m : Nat} {e : Int} (h : -1074 ≤ (m.log2 : Int) - 52 + e) :
    Format.binary64.targetExponent (totalExponent m e) = m.log2 - 52 + e := by
  simp only [Format.targetExponent, totalExponent, Format.mantissaBits, Format.minExponent]
  norm_num
  omega

theorem shift_eq {m : Nat} {e : Int} {n : Nat} (hm : m.log2 = 52 + n) (h : -1074 ≤ n + e) :
    shiftToTargetExponent .binary64 m e .exact =
      ((⟨m, false, false⟩ : ExtendedMantissa) >>> n, e + n) := by
  have amount : ((m.log2 : Int) - 52 + e - e).toNat = n := by omega
  unfold shiftToTargetExponent shiftToExponent
  rw [targetExponent_eq (by omega)]
  dsimp only
  rw [amount]
  rfl

theorem full_of_mantissa (s : Sign) {m : Nat} {e : Int} (least : 2 ^ 52 ≤ m) (most : m < 2 ^ 53)
    (hl : low ≤ e) (hh : e ≤ high) :
    Full low high (if h : m = 0 then .zero s else .finite s m e (Nat.pos_of_ne_zero h)) := by
  rw [dif_neg (by omega)]
  exact .mk s (by omega) least most hl hh

/-- A number of at least 53 bits is rounded to 53 bits. -/
theorem full_roundWithAccuracy (s : Sign) {m : Nat} {e : Int} {n : Nat} (hm : m.log2 = 52 + n)
    (h : -1074 ≤ n + e) :
    Full (e + n) (e + n + 1) (roundWithAccuracy .binary64 s m e .exact) := by
  have positive : m ≠ 0 := by
    intro zero
    rw [zero, Nat.log2_zero] at hm
    omega
  have least : 2 ^ 52 ≤ m / 2 ^ n := by
    rw [Nat.le_div_iff_mul_le (Nat.two_pow_pos n), ← Nat.pow_add, ← hm]
    exact Nat.log2_self_le positive
  have most : m / 2 ^ n < 2 ^ 53 := by
    rw [Nat.div_lt_iff_lt_mul (Nat.two_pow_pos n), ← Nat.pow_add,
      show 53 + n = m.log2 + 1 by omega]
    exact Nat.lt_log2_self
  have rounded := roundedMantissa_bounds ((⟨m, false, false⟩ : ExtendedMantissa) >>> n)
  simp only [mantissa_shift] at rounded
  unfold roundWithAccuracy
  rw [shift_eq hm h]
  dsimp only
  generalize ((⟨m, false, false⟩ : ExtendedMantissa) >>> n).roundedMantissa = r at rounded ⊢
  -- the rounded mantissa may have got one bit more
  by_cases short : r < 2 ^ 53
  · have log : r.log2 = 52 + 0 := log2_eq (k := 52) (by omega) short
    rw [shift_eq log (by omega)]
    exact full_of_mantissa s (show 2 ^ 52 ≤ r by omega) short (by omega) (by omega)
  · obtain rfl : r = 2 ^ 53 := by omega
    have log : (2 ^ 53 : Nat).log2 = 52 + 1 := log2_eq (k := 53) (by decide) (by decide)
    rw [shift_eq log (by omega)]
    have half : 2 ^ 52 ≤ 2 ^ 53 / 2 ^ 1 ∧ 2 ^ 53 / 2 ^ 1 < 2 ^ 53 := by decide
    exact full_of_mantissa s half.1 half.2 (by omega) (by omega)

end Round

section Pack

theorem toNat_packComponents (s : Sign) (e : BitVec 11) (m : BitVec 52) :
    (packComponents .binary64 s e m).toNat =
      s.toBitVec.toNat * 2 ^ 63 + e.toNat * 2 ^ 52 + m.toNat := by
  unfold packComponents
  rw [BitVec.toNat_append, ← Nat.shiftLeft_add_eq_or_of_lt m.isLt, BitVec.toNat_append,
    ← Nat.shiftLeft_add_eq_or_of_lt e.isLt, Nat.shiftLeft_eq, Nat.shiftLeft_eq]
  ring

/-- A sign, an exponent and a mantissa make up a double. -/
theorem partsOfBits_packComponents (s : Sign) (e : BitVec 11) (m : BitVec 52) :
    partsOfBits (packComponents .binary64 s e m).toNat =
      if e.toNat = 2047 then if m.toNat = 0 then .infinite (s == .negative) else .nan
      else if e.toNat = 0 then .finite ⟨s == .negative, m.toNat, leastExponent⟩
      else .finite ⟨s == .negative, hiddenBit + m.toNat, (e.toNat : Int) - 1075⟩ := by
  have he := e.isLt
  have hm := m.isLt
  have hidden : hiddenBit = 2 ^ 52 := rfl
  have width : Nat.pow 2 11 = 2 ^ 11 := rfl
  have top : Nat.pow 2 63 = 2 ^ 63 := rfl
  unfold partsOfBits
  rw [toNat_packComponents, hidden, width, top]
  have sign : ((s.toBitVec.toNat * 2 ^ 63 + e.toNat * 2 ^ 52 + m.toNat) / 2 ^ 63 % 2 == 1) =
      (s == .negative) := by
    cases s <;> simp [Sign.toBitVec] <;> omega
  have hs := s.toBitVec.isLt
  have field : (s.toBitVec.toNat * 2 ^ 63 + e.toNat * 2 ^ 52 + m.toNat) / 2 ^ 52 % 2 ^ 11 =
      e.toNat := by omega
  have fraction : (s.toBitVec.toNat * 2 ^ 63 + e.toNat * 2 ^ 52 + m.toNat) % 2 ^ 52 = m.toNat := by
    omega
  dsimp only
  rw [sign, field, fraction]

/-- A packed number of 53 bits: the exponent field is neither empty nor full, the leading bit
goes. -/
theorem Full.pack_eq {s : Sign} {m : Nat} {e : Int} {positive : 0 < m} (least : 2 ^ 52 ≤ m)
    (most : m < 2 ^ 53)
    (hl : -1074 ≤ e) (hh : e ≤ 971) :
    UnpackedFloat.pack .binary64 (.finite s m e positive) =
      packComponents .binary64 s (BitVec.ofNat 11 (e + 1075).toNat) (BitVec.ofNat 52 m) := by
  have log : m.log2 = 52 := log2_eq least most
  have field :
      (e + Format.binary64.exponentBias + Format.binary64.mantissaBitsWithoutImplicit).toNat =
      (e + 1075).toNat := by
    simp only [Format.exponentBias]
    omega
  unfold UnpackedFloat.pack
  dsimp only
  rw [field, if_neg (show ¬ 2 ^ 11 ≤ (e + 1075).toNat + 1 by omega), if_pos (by rw [log]; rfl)]

theorem toNat_field {e : Int} (hl : -1074 ≤ e) (hh : e ≤ 971) :
    (BitVec.ofNat 11 (e + 1075).toNat).toNat = (e + 1075).toNat := by
  rw [BitVec.toNat_ofNat, Nat.mod_eq_of_lt]
  omega

/-- What is packed can be unpacked again. -/
theorem Full.unpack_pack (h : Full low high u) (hl : -1074 ≤ low) (hh : high ≤ 971) :
    (Float.Model.pack u).unpack = u := by
  cases h with
  | @mk s m e positive least most above below =>
    change UnpackedFloat.unpack .binary64 (UnpackedFloat.pack .binary64 _) = _
    rw [Full.pack_eq least most (hl.trans above) (below.trans hh)]
    have field := toNat_field (hl.trans above) (below.trans hh)
    have some_field : BitVec.ofNat 11 (e + 1075).toNat ≠ 0#11 := by
      intro same
      have := congrArg BitVec.toNat same
      rw [field] at this
      simp only [BitVec.toNat_ofNat, Nat.zero_mod] at this
      omega
    have no_full : BitVec.ofNat 11 (e + 1075).toNat ≠ -1#11 := by
      intro same
      have := congrArg BitVec.toNat same
      rw [field] at this
      change _ = 2047 at this
      omega
    have leading : (1#1 ++ BitVec.ofNat 52 m).toNat = m := by
      rw [BitVec.toNat_append, ← Nat.shiftLeft_add_eq_or_of_lt (BitVec.isLt _), BitVec.toNat_ofNat,
        BitVec.toNat_ofNat, Nat.shiftLeft_eq]
      omega
    unfold UnpackedFloat.unpack
    simp only [unpackMantissa_packComponents, unpackExponent_packComponents,
      unpackSign_packComponents, Sign.ofBitVec_toBitVec]
    rw [if_neg no_full, if_neg some_field]
    simp only [leading, field]
    congr 1
    simp only [Format.exponentBias]
    omega

/-- A packed number of 53 bits has these 53 bits for its parts. -/
theorem Full.parts (h : Full low high u) (hl : -1074 ≤ low) (hh : high ≤ 971) :
    ∃ x, parts (.ofModel (.pack u)) = .finite x ∧ x.mantissa ≠ 0 := by
  cases h with
  | @mk s m e positive least most above below =>
    have field := toNat_field (hl.trans above) (below.trans hh)
    change ∃ x, partsOfBits (UnpackedFloat.pack .binary64 (.finite s m e positive)).toNat =
      .finite x ∧ _
    rw [Full.pack_eq least most (hl.trans above) (below.trans hh),
      partsOfBits_packComponents, field, if_neg (by omega), if_neg (by omega)]
    exact ⟨_, rfl, by simp [hiddenBit]⟩

end Pack

theorem log2_shiftLeft {n : Nat} (positive : 0 < n) (k : Nat) : (n <<< k).log2 = n.log2 + k := by
  rw [Nat.shiftLeft_eq]
  apply log2_eq
  · rw [Nat.pow_add]
    exact Nat.mul_le_mul_right _ (Nat.log2_self_le positive.ne')
  · rw [Nat.add_right_comm, Nat.pow_add]
    exact Nat.mul_lt_mul_of_pos_right Nat.lt_log2_self (Nat.two_pow_pos k)

theorem full_ofNat {n : Nat} (positive : 0 < n) (small : n < 2 ^ 53) :
    Full (-52) 1 (UnpackedFloat.ofNat .binary64 n) := by
  have short : n.log2 < 53 := (Nat.log2_lt positive.ne').2 small
  have rounded : UnpackedFloat.ofNat .binary64 n = UnpackedFloat.round .binary64 .positive n 0 := by
    have sign : compare (n : Int) 0 = .gt := by
      rw [Int.compare_eq_gt]
      omega
    unfold UnpackedFloat.ofNat UnpackedFloat.ofInt UnpackedFloat.normalize
    rw [sign]
    rfl
  have target := targetExponent_eq (m := n) (e := 0) (by omega)
  rw [rounded]
  unfold UnpackedFloat.round decreaseExponent
  rw [target]
  dsimp only
  have log : (n <<< (0 - ((n.log2 : Int) - 52 + 0)).toNat).log2 = 52 + 0 := by
    rw [log2_shiftLeft positive]
    omega
  exact (full_roundWithAccuracy .positive log (by omega)).mono (by omega) (by omega)

/-- The product with a number that is one. -/
theorem Full.mul_one (h : Full low high u) (hl : -1074 ≤ low) :
    Full low (high + 1) (mul .binary64 u (.finite .positive (2 ^ 52) (-52) (by decide))) := by
  cases h with
  | @mk s m e positive least most above below =>
    have log : (m * 2 ^ 52).log2 = 52 + 52 := by
      rw [← Nat.shiftLeft_eq, log2_shiftLeft positive, log2_eq least most]
    have full := full_roundWithAccuracy (s * .positive) (e := e + -52) (n := 52) log (by omega)
    exact full.mono (by omega) (by omega)

/-- A positive integer in the range of 64 bits. -/
theorem full_float_ofNat {n : Nat} (positive : 0 < n) (h : n ≤ 2 ^ 63) :
    ∃ u, Full (-52) 12 u ∧ Float.ofNat n = .ofModel (.pack u) := by
  change ∃ u, _ ∧ Float.ofScientific n false 0 = _
  unfold Float.ofScientific
  by_cases small : n < 2 ^ 53
  · rw [dif_pos ⟨small, by decide⟩]
    have full := full_ofNat positive small
    have one : (Float.Model.ofBits 0x3FF0000000000000).unpack =
        .finite .positive (2 ^ 52) (-52) (by decide) := by rfl
    refine ⟨_, (full.mul_one (by decide)).mono le_rfl (by decide), ?_⟩
    have whole : (Float.Model.ofUInt64 n.toUInt64).unpack = UnpackedFloat.ofNat .binary64 n := by
      have same : n.toUInt64.toNat = n := UInt64.toNat_ofNat_of_lt' (small.trans (by decide))
      rw [Float.Model.ofUInt64, UnpackedFloat.ofUInt64, same]
      exact full.unpack_pack (by decide) (by decide)
    rw [← whole, ← one]
    rfl
  · rw [dif_neg (fun given => small given.1)]
    have log : n.log2 ≤ 63 := by
      have := (Nat.log2_lt positive.ne').2 (Nat.lt_of_le_of_lt h (by decide : 2 ^ 63 < 2 ^ 64))
      omega
    have log' : 53 ≤ n.log2 := (Nat.le_log2 positive.ne').2 (Nat.not_lt.1 small)
    refine ⟨UnpackedFloat.ofScientific .binary64 n 0, ?_, rfl⟩
    unfold UnpackedFloat.ofScientific
    rw [dif_neg positive.ne', if_neg (by decide), if_neg (by simp), if_pos le_rfl]
    have log'' : ((n <<< 53) * 10 ^ 0).log2 = 52 + (n.log2 + 1) := by
      rw [Nat.pow_zero, Nat.mul_one, log2_shiftLeft positive]
      omega
    have full := full_roundWithAccuracy (.positive * .positive) (e := -53 + 0) log'' (by omega)
    exact full.mono (by omega) (by omega)

/-- A positive integer or its negative: a finite double that is not zero. -/
theorem parts_float_ofNat {n : Nat} (positive : 0 < n) (h : n ≤ 2 ^ 63) :
    (∃ x, parts (Float.ofNat n) = .finite x ∧ x.mantissa ≠ 0) ∧
      ∃ x, parts (Float.ofNat n).neg = .finite x ∧ x.mantissa ≠ 0 := by
  obtain ⟨u, full, heq⟩ := full_float_ofNat positive h
  constructor
  · rw [heq]
    exact full.parts (by decide) (by decide)
  · have negated : (Float.ofNat n).neg = .ofModel (.pack u.neg) := by
      rw [heq]
      change Float.ofModel (.pack (Float.Model.pack u).unpack.neg) = _
      rw [full.unpack_pack (by decide) (by decide)]
    rw [negated]
    exact full.neg.parts (by decide) (by decide)

end Stencil.Binary64

namespace Stencil.Integer
open Binary64

/-- Every integer of 64 bits becomes a double, and only zero becomes zero. -/
theorem toFloat?_of_fits {n : Int} (h : fits n = true) :
    ∃ x, toFloat? n = some x ∧ (∃ p, parts x = .finite p) ∧ (isZero x = true ↔ n = 0) := by
  have of_parts {x : Float} {p : Finite} (hp : parts x = .finite p) (zero : p.mantissa = 0 ↔ n = 0)
      (hx : Float.ofInt n = x) :
      ∃ x, toFloat? n = some x ∧ (∃ p, parts x = .finite p) ∧ (isZero x = true ↔ n = 0) := by
    subst hx
    refine ⟨Float.ofInt n, by simp [toFloat?, hp], ⟨p, hp⟩, ?_⟩
    rw [isZero, hp, ← zero]
    exact beq_iff_eq
  obtain ⟨least, most⟩ := (fits_iff n).1 h
  have power : Int.pow 2 63 = 2 ^ 63 := rfl
  rw [power] at least most
  cases n with
  | ofNat m =>
    by_cases zero : m = 0
    · subst zero
      exact of_parts (x := Float.ofNat 0) (p := ⟨false, 0, -1074⟩) (by decide +kernel) (by simp) rfl
    · have positive : 0 < m := Nat.pos_of_ne_zero zero
      have most : (m : Int) < 2 ^ 63 := most
      obtain ⟨⟨p, hp, mantissa⟩, -⟩ := parts_float_ofNat positive (by omega)
      exact of_parts hp (by simp [mantissa, zero]) rfl
  | negSucc m =>
    obtain ⟨-, p, hp, mantissa⟩ := parts_float_ofNat m.succ_pos (by omega)
    exact of_parts hp (by simp [mantissa]) rfl

end Stencil.Integer
