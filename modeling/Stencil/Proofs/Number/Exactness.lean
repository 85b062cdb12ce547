import Mathlib
import Stencil.Operator
import Stencil.Proofs.Number.Extent

/-! What the operators of arithmetic come to for integers of any size, and which of the results of
64-bit integers have 64 bits again. -/
namespace Stencil

namespace Operator

def arithmetic : List Operator := [add, subtract, multiply, divide, remainder]

def divides : Operator → Bool
  | divide | remainder => true
  | _ => false

end Operator

namespace Rounding

theorem truncate_neg (q : Rat) : truncate (-q) = -truncate q := by
  unfold truncate
  rcases lt_trichotomy q 0 with below | rfl | above
  · rw [if_neg (by linarith), if_pos below, Rat.ceil_eq_neg_floor_neg, neg_neg]
  · rfl
  · rw [if_pos (by linarith), if_neg (by linarith), Rat.ceil_eq_neg_floor_neg, neg_neg]

theorem truncate_natCast_div (a b : Nat) : truncate ((a : Rat) / b) = a / b := by
  have positive : (0 : Rat) ≤ (a : Rat) / b := by positivity
  rw [truncate, if_neg positive.not_gt]
  exact Rat.floor_intCast_div_natCast a b

/-- Integers are divided as rational numbers are, and the fraction is dropped. -/
theorem truncate_div (m n : Int) : truncate ((m : Rat) / n) = m.tdiv n := by
  obtain ⟨a, rfl | rfl⟩ := m.eq_nat_or_neg
  · obtain ⟨b, rfl | rfl⟩ := n.eq_nat_or_neg
    · rw [Int.tdiv_eq_ediv_of_nonneg (Int.natCast_nonneg a)]
      exact truncate_natCast_div a b
    · rw [Int.tdiv_neg, Int.tdiv_eq_ediv_of_nonneg (Int.natCast_nonneg a), Int.cast_neg, div_neg,
        truncate_neg]
      exact congrArg Neg.neg (truncate_natCast_div a b)
  · obtain ⟨b, rfl | rfl⟩ := n.eq_nat_or_neg
    · rw [Int.neg_tdiv, Int.tdiv_eq_ediv_of_nonneg (Int.natCast_nonneg a), Int.cast_neg, neg_div,
        truncate_neg]
      exact congrArg Neg.neg (truncate_natCast_div a b)
    · rw [Int.neg_tdiv, Int.tdiv_neg, neg_neg, Int.tdiv_eq_ediv_of_nonneg (Int.natCast_nonneg a),
        Int.cast_neg, Int.cast_neg, neg_div_neg_eq]
      exact truncate_natCast_div a b

end Rounding

namespace Integer

/-- The mathematical result of an operator. The quotient is the rational one without its fraction;
the remainder is what the quotient leaves, smaller than the divisor and never on the other side of
zero. -/
inductive Exact (m n : Int) : Operator → Int → Prop where
  | sum : Exact m n .add (m + n)
  | difference : Exact m n .subtract (m - n)
  | product : Exact m n .multiply (m * n)
  | quotient : n ≠ 0 → Exact m n .divide (Rounding.truncate ((m : Rat) / n))
  | remainder {r : Int} : n ≠ 0 → m = n * Rounding.truncate ((m : Rat) / n) + r → |r| < |n| →
      r = 0 ∨ r.sign = m.sign → Exact m n .remainder r

variable {m n r s : Int} {op : Operator}

/-- One case for each pair of signs. -/
theorem quotient_eq_tdiv (m n : Int) : quotient m n = m.tdiv n := by
  have sizes : ((m.natAbs / n.natAbs : Nat) : Int) = (m.natAbs : Int).tdiv n.natAbs :=
    Int.ofNat_tdiv ..
  unfold quotient
  dsimp only
  rw [sizes]
  by_cases hm : m < 0
  · have left : (m.natAbs : Int) = -m := by omega
    by_cases hn : n < 0
    · have right : (n.natAbs : Int) = -n := by omega
      rw [left, right, if_neg (by simp [hm, hn]), Int.neg_tdiv, Int.tdiv_neg, neg_neg]
    · have right : (n.natAbs : Int) = n := by omega
      rw [left, right, Int.neg_tdiv, neg_neg, if_pos (by simp [hm, hn])]
  · have left : (m.natAbs : Int) = m := by omega
    by_cases hn : n < 0
    · have right : (n.natAbs : Int) = -n := by omega
      rw [left, right, Int.tdiv_neg, neg_neg, if_pos (by simp [hm, hn])]
    · have right : (n.natAbs : Int) = n := by omega
      rw [left, right, if_neg (by simp [hm, hn])]

theorem remainder_eq_tmod (m n : Int) : remainder m n = m.tmod n := by
  rw [remainder, quotient_eq_tdiv, Int.tmod_def]

theorem exact_tmod (h : n ≠ 0) : Exact m n .remainder (m.tmod n) := by
  refine .remainder h ?_ ?_ ?_
  · rw [Rounding.truncate_div, Int.mul_tdiv_add_tmod]
  · rw [Int.abs_eq_natAbs, Int.abs_eq_natAbs, Int.natAbs_tmod]
    exact_mod_cast Nat.mod_lt _ (Int.natAbs_pos.2 h)
  · by_cases whole : n ∣ m
    · exact .inl (Int.tmod_eq_zero_of_dvd whole)
    · exact .inr (by rw [Int.sign_tmod, if_neg whole])

theorem Exact.unique (h : Exact m n op r) (h' : Exact m n op s) : r = s := by
  cases h with
  | sum | difference | product | quotient =>
    cases h'
    rfl
  | remainder nonzero split =>
    cases h' with
    | remainder _ split' => omega

theorem exact_divide_iff : Exact m n .divide r ↔ n ≠ 0 ∧ r = m.tdiv n := by
  rw [← Rounding.truncate_div]
  constructor
  · intro h
    cases h with
    | quotient nonzero => exact ⟨nonzero, rfl⟩
  · rintro ⟨nonzero, rfl⟩
    exact .quotient nonzero

theorem exact_remainder_iff : Exact m n .remainder r ↔ n ≠ 0 ∧ r = m.tmod n := by
  constructor
  · intro h
    cases h with
    | remainder nonzero split small side =>
      have given : Exact m n .remainder r := .remainder nonzero split small side
      exact ⟨nonzero, given.unique (exact_tmod nonzero)⟩
  · rintro ⟨nonzero, rfl⟩
    exact exact_tmod nonzero

/-- No result of 64-bit integers has so many digits that it cannot be written. -/
theorem Exact.writable (h : Exact m n op r) (hm : fits m = true) (hn : fits n = true) :
    Writable r := by
  have first := natAbs_le_of_fits hm
  have second := natAbs_le_of_fits hn
  cases h with
  | sum =>
    have bound : (m + n).natAbs ≤ 2 ^ 64 := by omega
    exact writable_of_le bound (by decide)
  | difference =>
    have bound : (m - n).natAbs ≤ 2 ^ 64 := by omega
    exact writable_of_le bound (by decide)
  | product =>
    have bound : (m * n).natAbs ≤ 2 ^ (63 + 63) := by
      rw [Int.natAbs_mul, pow_add]
      exact Nat.mul_le_mul first second
    exact writable_of_le bound (by decide)
  | quotient =>
    have bound : (m.tdiv n).natAbs ≤ 2 ^ 63 := by
      rw [Int.natAbs_tdiv]
      exact (Nat.div_le_self _ _).trans first
    rw [Rounding.truncate_div]
    exact writable_of_le bound (by decide)
  | remainder _ _ small _ =>
    rw [Int.abs_eq_natAbs, Int.abs_eq_natAbs] at small
    have bound : r.natAbs ≤ 2 ^ 63 := by omega
    exact writable_of_le bound (by decide)

/-- The negative of the least integer is the one that is missing. -/
theorem not_fits_neg_iff (hm : fits m = true) : fits (-m) = false ↔ m = -2 ^ 63 := by
  obtain ⟨least, most⟩ := fits_iff_range.1 hm
  rw [← Bool.not_eq_true, fits_iff_range]
  omega

theorem not_fits_abs_iff (hm : fits m = true) : fits |m| = false ↔ m = -2 ^ 63 := by
  obtain ⟨least, most⟩ := fits_iff_range.1 hm
  rw [← Bool.not_eq_true, fits_iff_range, Int.abs_eq_natAbs]
  omega

/-- Only a division by minus one can leave the range, as a negation does. -/
theorem not_fits_tdiv_iff (hm : fits m = true) : fits (m.tdiv n) = false ↔
    m = -2 ^ 63 ∧ n = -1 := by
  by_cases one : n = -1
  · rw [one, Int.tdiv_neg, Int.tdiv_one, not_fits_neg_iff hm]
    exact (and_iff_left rfl).symm
  · obtain ⟨least, most⟩ := fits_iff_range.1 hm
    have small : (m.tdiv n).natAbs = m.natAbs / n.natAbs := Int.natAbs_tdiv m n
    have inside : fits (m.tdiv n) = true := by
      rw [fits_iff_range]
      by_cases far : 2 ≤ n.natAbs
      · have half : m.natAbs / n.natAbs ≤ m.natAbs / 2 := Nat.div_le_div_left far (by decide)
        omega
      · obtain rfl | rfl : n = 0 ∨ n = 1 := by omega
        · rw [Int.tdiv_zero]
          omega
        · rw [Int.tdiv_one]
          exact ⟨least, most⟩
    simp [inside, one]

theorem fits_tmod (hm : fits m = true) : fits (m.tmod n) = true := by
  obtain ⟨least, most⟩ := fits_iff_range.1 hm
  have size : (m.tmod n).natAbs = m.natAbs % n.natAbs := Int.natAbs_tmod m n
  have shorter : m.natAbs % n.natAbs ≤ m.natAbs := Nat.mod_le _ _
  have side : m < 0 → m.tmod n ≤ 0 := by
    intro negative
    have mirrored : 0 ≤ (-m).tmod n := Int.tmod_nonneg n (by omega)
    rw [Int.neg_tmod] at mirrored
    omega
  rw [fits_iff_range]
  omega

end Integer

end Stencil
