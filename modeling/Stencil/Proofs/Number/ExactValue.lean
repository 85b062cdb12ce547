import Mathlib
import Stencil.Proofs.Number.Extent

/-! The exact values of numbers among the real numbers and the two infinities. -/
namespace Stencil

namespace Extended

noncomputable def toEReal : Extended → EReal
  | negInfinity => ⊥
  | finite q => ((q : ℝ) : EReal)
  | posInfinity => ⊤

theorem lt_iff {x y : Extended} : lt x y = true ↔ x.toEReal < y.toEReal := by
  cases x <;> cases y <;> simp [lt, toEReal]

theorem toEReal_inj {x y : Extended} : x.toEReal = y.toEReal ↔ x = y := by
  cases x <;> cases y <;> simp [toEReal]

theorem le_iff {x y : Extended} : le x y = true ↔ x.toEReal ≤ y.toEReal := by
  rw [le_eq_lt_or_eq, Bool.or_eq_true, lt_iff, decide_eq_true_iff, ← toEReal_inj, le_iff_lt_or_eq]

end Extended

namespace Value

noncomputable def real? : Value → Option EReal
  | int n => some ((n : ℝ) : EReal)
  | float x =>
    match Binary64.parts x with
    | .nan => none
    | .infinite true => some ⊥
    | .infinite false => some ⊤
    | .finite p => some ((p.value : ℝ) : EReal)
  | _ => none

theorem real?_eq (v : Value) : v.real? = v.number?.map Extended.toEReal := by
  cases v with
  | int n => simp [real?, number?, Extended.ofInt, Extended.toEReal]
  | float x =>
    rw [real?, number?, Extended.ofFloat?]
    rcases Binary64.parts x with _ | (_ | _) | p
    · rfl
    · rfl
    · rfl
    · simp [Extended.toEReal, Binary64.ofDyadic_eq_value]
  | null | bool | string | list | pair | mapping | record => rfl

end Value
end Stencil
