import Mathlib
import Stencil.Operation

/-! How far numbers go. No finite double reaches the power of two where the infinities begin, so an
integer it is rounded to can be written out. -/
namespace Stencil

namespace Integer

def Writable (n : Int) : Prop := n.natAbs < Nat.pow 10 NumeralFault.digitLimit

theorem Writable.text {n : Int} (h : Writable n) : Numeral.integerText? n = some (toString n) := by
  unfold Writable at h
  rw [Numeral.integerText?, if_pos h]

theorem Writable.tooWide {n : Int} (h : Writable n) (place : RenderFault.Place) :
    RenderFault.tooWide place n = .mismatch .integer64 (toString n) (some place) := by
  unfold RenderFault.tooWide
  rw [h.text]

theorem not_writable_pow : ¬Writable (10 ^ NumeralFault.digitLimit) := by
  rw [Writable, Int.natAbs_pow]
  generalize NumeralFault.digitLimit = limit
  exact lt_irrefl _

theorem text_of_not_writable {n : Int} (h : ¬Writable n) : Numeral.integerText? n = none := by
  unfold Writable at h
  rw [Numeral.integerText?, if_neg h]

theorem tooWide_of_not_writable {n : Int} (h : ¬Writable n) (place : RenderFault.Place) :
    RenderFault.tooWide place n = .integerTooLong := by
  unfold RenderFault.tooWide
  rw [text_of_not_writable h]

theorem writable_of_le {n : Int} {k : Nat} (h : n.natAbs ≤ 2 ^ k)
    (hk : k < NumeralFault.digitLimit) :
    Writable n := by
  unfold Writable
  generalize NumeralFault.digitLimit = limit at hk ⊢
  calc n.natAbs ≤ 2 ^ k := h
    _ ≤ 10 ^ k := Nat.pow_le_pow_left (by decide) k
    _ < 10 ^ limit := Nat.pow_lt_pow_right (by decide) hk

theorem fits_iff_range {n : Int} : fits n = true ↔ -2 ^ 63 ≤ n ∧ n < 2 ^ 63 := fits_iff n

theorem natAbs_le_of_fits {n : Int} (h : fits n = true) : n.natAbs ≤ 2 ^ 63 := by
  obtain ⟨least, most⟩ := fits_iff_range.1 h
  omega

theorem writable_of_fits {n : Int} (h : fits n = true) : Writable n :=
  writable_of_le (natAbs_le_of_fits h) (by decide)

end Integer

namespace Binary64

/-- The parts of a finite double have bounds. -/
theorem bounds_of_parts {x : Float} {p : Finite} (h : parts x = .finite p) :
    p.mantissa ≤ 2 ^ 53 ∧ p.exponent ≤ 971 := by
  have hidden : hiddenBit = 2 ^ 52 := rfl
  have width : Nat.pow 2 11 = 2 ^ 11 := rfl
  unfold parts partsOfBits at h
  rw [hidden, width] at h
  dsimp only at h
  split at h
  · split at h <;> cases h
  · split at h
    · cases h
      exact ⟨by dsimp only; omega, show (-1074 : Int) ≤ 971 by decide⟩
    · cases h
      exact ⟨by dsimp only; omega, by dsimp only; omega⟩

def Finite.value (p : Finite) : Rat := (if p.negative then -1 else 1) * p.mantissa * 2 ^ p.exponent

theorem ofDyadic_eq_value (p : Finite) : Extended.ofDyadic p = p.value := by
  obtain ⟨negative, mantissa, exponent⟩ := p
  have signed : ((if negative then -(mantissa : Int) else mantissa : Int) : Rat) =
      (if negative then -1 else 1) * mantissa := by
    cases negative <;> simp
  unfold Extended.ofDyadic Finite.value
  dsimp only
  rw [← signed]
  cases exponent with
  | ofNat e =>
    dsimp only
    rw [Rat.mkRat_one, show Int.pow 2 e = 2 ^ e from rfl, Int.ofNat_eq_natCast, zpow_natCast]
    push_cast
    rfl
  | negSucc e =>
    dsimp only
    rw [Rat.mkRat_eq_div, zpow_negSucc, div_eq_mul_inv, show Nat.pow 2 (e + 1) =
      2 ^ (e + 1) from rfl]
    push_cast
    rfl

theorem Finite.abs_value (p : Finite) : |p.value| = p.mantissa * 2 ^ p.exponent := by
  have sign : |(if p.negative then -1 else 1 : Rat)| = 1 := by cases p.negative <;> simp
  have power : (0 : Rat) < 2 ^ p.exponent := by positivity
  rw [Finite.value, abs_mul, abs_mul, sign, one_mul, Nat.abs_cast, abs_of_pos power]

end Binary64

namespace Extended
open Binary64

theorem abs_ofDyadic_le {p : Finite} (hm : p.mantissa ≤ 2 ^ 53) (he : p.exponent ≤ 971) :
    |ofDyadic p| ≤ 2 ^ 1024 := by
  have mantissa : (p.mantissa : Rat) ≤ 2 ^ 53 := by exact_mod_cast hm
  have power : (2 : Rat) ^ p.exponent ≤ 2 ^ (971 : Int) := zpow_le_zpow_right₀ (by norm_num) he
  rw [ofDyadic_eq_value, Finite.abs_value]
  calc (p.mantissa : Rat) * 2 ^ p.exponent
      ≤ 2 ^ 53 * 2 ^ (971 : Int) := mul_le_mul mantissa power (by positivity) (by positivity)
    _ = 2 ^ 1024 := by rw [← zpow_natCast, ← zpow_natCast, ← zpow_add₀ two_ne_zero]; rfl

theorem ofDyadic_eq_zero_iff (p : Finite) : ofDyadic p = 0 ↔ p.mantissa = 0 := by
  have power : (2 : Rat) ^ p.exponent ≠ 0 := zpow_ne_zero _ two_ne_zero
  rw [ofDyadic_eq_value, ← abs_eq_zero, Finite.abs_value, mul_eq_zero, or_iff_left power,
    Nat.cast_eq_zero]

end Extended

namespace Rounding

variable {q : Rat} {b : Int}

theorem abs_floor_le (h : |q| ≤ b) : |q.floor| ≤ b := by
  obtain ⟨least, most⟩ := abs_le.1 h
  rw [abs_le]
  constructor
  · exact Rat.le_floor_iff.2 (by simpa using least)
  · have below := (Rat.floor_le q).trans most
    exact_mod_cast below

theorem abs_ceil_le (h : |q| ≤ b) : |q.ceil| ≤ b := by
  obtain ⟨least, most⟩ := abs_le.1 h
  rw [abs_le]
  constructor
  · have above := least.trans Rat.le_ceil
    exact_mod_cast above
  · exact Rat.ceil_le_iff.2 most

theorem abs_truncate_le (h : |q| ≤ b) : |truncate q| ≤ b := by
  unfold truncate
  split
  · exact abs_ceil_le h
  · exact abs_floor_le h

/-- To the nearest integer can be one more. -/
theorem abs_nearest_le (h : |q| ≤ b) : |nearest q| ≤ b + 1 := by
  have half : mkRat 1 2 = 1 / 2 := by rw [Rat.mkRat_eq_div]; norm_num
  have lifted {r : Rat} (hr : |r| ≤ b) : |(r + 1 / 2).floor| ≤ b + 1 := by
    apply abs_floor_le
    calc |r + 1 / 2| ≤ |r| + |1 / 2| := abs_add_le r (1 / 2)
      _ ≤ b + 1 := add_le_add hr (by norm_num)
      _ = ((b + 1 : Int) : Rat) := by push_cast; rfl
  unfold nearest
  rw [half]
  split
  · rw [abs_neg]
    exact lifted (by rwa [abs_neg])
  · exact lifted h

end Rounding

namespace Operation

/-- A double that is rounded gives an integer that can be written. -/
theorem writable_rounded {rule : Rat → Int}
    (near : ∀ (q : Rat) (b : Int), |q| ≤ b → |rule q| ≤ b + 1) {x : Float} {n : Int}
    (h : rounded rule x = .ok n) : Integer.Writable n := by
  unfold rounded Extended.ofFloat? at h
  cases hparts : Binary64.parts x with
  | nan => simp [hparts] at h
  | infinite negative => cases negative <;> simp [hparts] at h
  | finite p =>
    simp only [hparts, Except.ok.injEq] at h
    subst h
    obtain ⟨hm, he⟩ := Binary64.bounds_of_parts hparts
    have reach : |Extended.ofDyadic p| ≤ ((2 ^ 1024 : Int) : Rat) := by
      rw [Int.cast_pow]
      exact Extended.abs_ofDyadic_le hm he
    have extent := near _ _ reach
    apply Integer.writable_of_le (k := 1025) _ (by decide)
    have double : (2 : Int) ^ 1025 = 2 ^ 1024 + 2 ^ 1024 := by rw [pow_succ]; omega
    have one : (1 : Int) ≤ 2 ^ 1024 := one_le_pow₀ (by decide)
    zify
    calc |rule (Extended.ofDyadic p)| ≤ 2 ^ 1024 + 1 := extent
      _ ≤ 2 ^ 1025 := by rw [double]; exact Int.add_le_add_left one _

end Operation

end Stencil
