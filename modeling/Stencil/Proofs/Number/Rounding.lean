import Mathlib
import Stencil.Proofs.Number.Exactness

/-! The four ways to round: down, up, towards zero, and to the nearest integer with halves away from
zero. -/
namespace Stencil

namespace Operation

def roundings : List Operation := [floor, ceil, toInteger, round]

def rule : Operation → Rat → Int
  | floor => Rat.floor
  | ceil => Rat.ceil
  | toInteger => Rounding.truncate
  | _ => Rounding.nearest

end Operation

namespace Rounding

inductive Rounds (q : Rat) : Operation → Int → Prop where
  | floor {n : Int} : IsGreatest {m : Int | (m : Rat) ≤ q} n → Rounds q .floor n
  | ceil {n : Int} : IsLeast {m : Int | q ≤ m} n → Rounds q .ceil n
  | toInteger : Rounds q .toInteger (SignType.sign q * ⌊|q|⌋)
  | round : Rounds q .round (SignType.sign q * ⌊|q| + 1 / 2⌋)

variable {q : Rat} {o : Operation} {m n : Int}

theorem Rounds.unique (h : Rounds q o m) (h' : Rounds q o n) : m = n := by
  cases h with
  | floor greatest =>
    cases h' with
    | floor greatest' => exact greatest.unique greatest'
  | ceil least =>
    cases h' with
    | ceil least' => exact least.unique least'
  | toInteger | round =>
    cases h'
    rfl

theorem floor_le_ceil (q : Rat) : q.floor ≤ q.ceil := by
  exact_mod_cast (Rat.floor_le q).trans Rat.le_ceil

theorem truncate_of_nonneg (h : 0 ≤ q) : truncate q = ⌊q⌋ := if_neg h.not_gt

theorem nearest_of_nonneg (h : 0 ≤ q) : nearest q = ⌊q + 1 / 2⌋ := by
  have half : mkRat 1 2 = 1 / 2 := by rw [Rat.mkRat_eq_div]; norm_num
  rw [nearest, half, if_neg h.not_gt]
  rfl

theorem nearest_neg (q : Rat) : nearest (-q) = -nearest q := by
  unfold nearest
  rcases lt_trichotomy q 0 with below | rfl | above
  · rw [if_neg (by linarith), if_pos below, neg_neg]
  · decide +kernel
  · rw [if_pos (by linarith), if_neg (by linarith), neg_neg]

/-- A rule that is the same on both sides of zero is told by what it does above. -/
theorem eq_sign_mul {rule : Rat → Int} (above : Rat → Int) (symmetric : ∀ q, rule (-q) = -rule q)
    (nonneg : ∀ q, 0 ≤ q → rule q = above q) (q : Rat) : rule q = SignType.sign q * above |q| := by
  rcases lt_trichotomy q 0 with below | rfl | positive
  · have mirrored := symmetric (-q)
    rw [neg_neg, nonneg (-q) (by linarith)] at mirrored
    rw [mirrored, sign_neg below, abs_of_neg below]
    simp
  · have zero := symmetric 0
    rw [neg_zero] at zero
    simp
    omega
  · rw [nonneg q positive.le, sign_pos positive, abs_of_pos positive]
    simp

theorem rounds_rule (h : o ∈ Operation.roundings) (q : Rat) : Rounds q o (o.rule q) := by
  simp only [Operation.roundings, List.mem_cons, List.not_mem_nil, or_false] at h
  rcases h with rfl | rfl | rfl | rfl
  · exact .floor ⟨Rat.floor_le q, fun m below => Rat.le_floor_iff.2 below⟩
  · exact .ceil ⟨Rat.le_ceil, fun m above => Rat.ceil_le_iff.2 above⟩
  · change Rounds q .toInteger (truncate q)
    rw [eq_sign_mul (fun r => ⌊r⌋) truncate_neg fun _ => truncate_of_nonneg]
    exact .toInteger
  · change Rounds q .round (nearest q)
    rw [eq_sign_mul (fun r => ⌊r + 1 / 2⌋) nearest_neg fun _ => nearest_of_nonneg]
    exact .round

theorem truncate_between (q : Rat) : q.floor ≤ truncate q ∧ truncate q ≤ q.ceil := by
  have ordered := floor_le_ceil q
  unfold truncate
  split
  · exact ⟨ordered, le_rfl⟩
  · exact ⟨le_rfl, ordered⟩

theorem nearest_between (q : Rat) : q.floor ≤ nearest q ∧ nearest q ≤ q.ceil := by
  have nonneg {r : Rat} (h : 0 ≤ r) : r.floor ≤ nearest r ∧ nearest r ≤ r.ceil := by
    rw [nearest_of_nonneg h]
    constructor
    · exact Int.floor_le_floor (by linarith)
    · have above : r + 1 / 2 < (r.ceil : Rat) + 1 := by linarith [@Rat.le_ceil r]
      exact Int.lt_add_one_iff.1 (Int.floor_lt.2 (by exact_mod_cast above))
  rcases le_total 0 q with h | h
  · exact nonneg h
  · -- on the other side of zero up and down change places
    obtain ⟨least, most⟩ := nonneg (neg_nonneg.2 h)
    rw [nearest_neg] at least most
    rw [Rat.ceil_eq_neg_floor_neg] at most ⊢
    rw [neg_neg] at most
    omega

/-- No integer is nearer, and of two that are equally near the one that is farther from zero is
taken. -/
theorem nearest_nearest (other : m ≠ nearest q) :
    |q - nearest q| < |q - m| ∨ |q - nearest q| = |q - m| ∧ |m| < |nearest q| := by
  have nonneg {r : Rat} {m : Int} (h : 0 ≤ r) (other : m ≠ nearest r) :
      |r - nearest r| < |r - m| ∨ |r - nearest r| = |r - m| ∧ |m| < |nearest r| := by
    rw [nearest_of_nonneg h] at other ⊢
    generalize hn : ⌊r + 1 / 2⌋ = n at other ⊢
    obtain ⟨least, most⟩ := Int.floor_eq_iff.1 hn
    have near : |r - n| ≤ 1 / 2 := abs_le.2 ⟨by linarith, by linarith⟩
    rcases lt_or_gt_of_ne other with below | above
    · have next : (m : Rat) + 1 ≤ n := by exact_mod_cast below
      rw [abs_of_pos (a := r - m) (by linarith)]
      rcases near.trans (show (1 : Rat) / 2 ≤ r - m by linarith) |>.lt_or_eq with nearer | same
      · exact .inl nearer
      · -- both are half a unit away, the other one below
        have nonneg : -1 < m := by exact_mod_cast (show (-1 : Rat) < m by linarith)
        rw [abs_of_nonneg (a := m) (by omega), abs_of_nonneg (a := n) (by omega)]
        exact .inr ⟨same, below⟩
    · have next : (n : Rat) + 1 ≤ m := by exact_mod_cast above
      rw [abs_sub_comm r m, abs_of_pos (a := (m : Rat) - r) (by linarith)]
      exact .inl (abs_lt.2 ⟨by linarith, by linarith⟩)
  rcases le_total 0 q with h | h
  · exact nonneg h other
  · have mirrored :=
      nonneg (r := -q) (m := -m) (neg_nonneg.2 h)
      (by rw [nearest_neg]; exact neg_injective.ne other)
    have away (k : Int) : |-q - ((-k : Int) : Rat)| = |q - k| := by
      rw [Int.cast_neg, neg_sub_neg, abs_sub_comm]
    rwa [nearest_neg, away, away, abs_neg, abs_neg] at mirrored

theorem abs_rule_le (h : o ∈ Operation.roundings) {b : Int} (bound : |q| ≤ b) :
    |o.rule q| ≤ b + 1 := by
  have wider {n : Int} (h : |n| ≤ b) : |n| ≤ b + 1 := h.trans (by omega)
  simp only [Operation.roundings, List.mem_cons, List.not_mem_nil, or_false] at h
  rcases h with rfl | rfl | rfl | rfl
  · exact wider (abs_floor_le bound)
  · exact wider (abs_ceil_le bound)
  · exact wider (abs_truncate_le bound)
  · exact abs_nearest_le bound

end Rounding
end Stencil
