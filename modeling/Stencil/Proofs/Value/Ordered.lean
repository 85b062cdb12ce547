import Stencil.Proofs.Number.ExactValue
import Stencil.Proofs.Value.Equal

/-! Comparisons. Numbers of both kinds stand in the order of their exact values, texts in the
lexicographic order of their code points, and what the operators say is what those orders say. -/
namespace Stencil

namespace Operator

def comparisons : List Operator := [equal, less, lessEqual, greater, greaterEqual]

def Relates {α : Type} [LT α] [LE α] (op : Operator) (a b : α) : Prop :=
  match op with
  | equal => a = b
  | less => a < b
  | lessEqual => a ≤ b
  | greater => b < a
  | greaterEqual => b ≤ a
  | _ => False

end Operator

namespace Value

def codePoints? : Value → Option (List Nat)
  | string s => some (s.toList.map Char.toNat)
  | _ => none

def Holds (op : Operator) (x y : Value) : Prop :=
  ∀ room, Expr.combine room op x y = .ok (.bool true)

def RankedBy {α : Type} [LinearOrder α] (rank : Value → Option α) : Prop :=
  ∀ x y a b, rank x = some a → rank y = some b → ∀ op ∈ Operator.comparisons,
    ∃ r, (∀ room, Expr.combine room op x y = .ok (.bool r)) ∧ (r = true ↔ op.Relates a b)

structure TotallyOrdered (D : Value → Prop) : Prop where
  trichotomy {x y : Value} : D x → D y → ∃! op, op ∈ [Operator.less, .equal, .greater] ∧
    Holds op x y
  trans {x y z : Value} : D x → D y → D z → Holds .less x y → Holds .less y z → Holds .less x z
  lessEqual_iff {x y : Value} : D x → D y →
    (Holds .lessEqual x y ↔ Holds .less x y ∨ Holds .equal x y)
  greater_iff {x y : Value} : D x → D y → (Holds .greater x y ↔ Holds .less y x)
  greaterEqual_iff {x y : Value} : D x → D y → (Holds .greaterEqual x y ↔ Holds .lessEqual y x)

section Ranked
variable {α : Type} [LinearOrder α] {rank : Value → Option α} {x y : Value} {a b : α}
    {op : Operator}

theorem RankedBy.holds_iff (ranked : RankedBy rank) (hx : rank x = some a) (hy : rank y = some b)
    (comparison : op ∈ Operator.comparisons) : Holds op x y ↔ op.Relates a b := by
  obtain ⟨r, result, agrees⟩ := ranked x y a b hx hy op comparison
  simp [Holds, result, ← agrees]

theorem RankedBy.totallyOrdered (ranked : RankedBy rank) :
    TotallyOrdered fun x => ∃ a, rank x = some a where
  trichotomy := by
    rintro x y ⟨a, hx⟩ ⟨b, hy⟩
    have less : Holds .less x y ↔ a < b := ranked.holds_iff hx hy (by decide)
    have equal : Holds .equal x y ↔ a = b := ranked.holds_iff hx hy (by decide)
    have greater : Holds .greater x y ↔ b < a := ranked.holds_iff hx hy (by decide)
    rcases lt_trichotomy a b with below | same | above
    · refine ⟨.less, ⟨by decide, less.2 below⟩, ?_⟩
      simp [equal, greater, below.ne, below.not_gt]
    · refine ⟨.equal, ⟨by decide, equal.2 same⟩, ?_⟩
      simp [less, greater, same]
    · refine ⟨.greater, ⟨by decide, greater.2 above⟩, ?_⟩
      simp [less, equal, above.ne', above.not_gt]
  trans := by
    rintro x y z ⟨a, hx⟩ ⟨b, hy⟩ ⟨c, hz⟩ first second
    rw [ranked.holds_iff hx hy (by decide)] at first
    rw [ranked.holds_iff hy hz (by decide)] at second
    exact (ranked.holds_iff hx hz (by decide)).2 (lt_trans first second)
  lessEqual_iff := by
    rintro x y ⟨a, hx⟩ ⟨b, hy⟩
    rw [ranked.holds_iff hx hy (by decide), ranked.holds_iff hx hy (by decide),
      ranked.holds_iff hx hy (by decide)]
    exact le_iff_lt_or_eq
  greater_iff := by
    rintro x y ⟨a, hx⟩ ⟨b, hy⟩
    rw [ranked.holds_iff hx hy (by decide), ranked.holds_iff hy hx (by decide)]
    rfl
  greaterEqual_iff := by
    rintro x y ⟨a, hx⟩ ⟨b, hy⟩
    rw [ranked.holds_iff hx hy (by decide), ranked.holds_iff hy hx (by decide)]
    rfl

end Ranked

section Numbers
variable {x y : Value} {p q : Extended}

theorem isNumber_iff : x.isNumber = true ↔ (∃ n, x = int n) ∨ ∃ u, x = float u := by
  cases x <;> simp [isNumber]

theorem isNumber_of_number? (h : x.number? = some p) : x.isNumber = true := by
  cases x with
  | int | float => rfl
  | null | bool | string | list | pair | mapping | record => cases h

/-- Numbers are equal when they have one and the same value. -/
theorem same_iff_number? (hx : x.isNumber = true) :
    x.same y = true ↔ ∃ p, x.number? = some p ∧ y.number? = some p := by
  rcases isNumber_iff.1 hx with ⟨n, rfl⟩ | ⟨u, rfl⟩
  · simp [same_int_iff, number?]
  · exact same_float_iff

theorem ordered_of_isNumber (hx : x.isNumber = true) (hy : y.isNumber = true) (op : Operator) :
    x.ordered op y = .ok (match op with
      | .less => compareNumbers Extended.lt x y
      | .lessEqual => compareNumbers Extended.le x y
      | .greater => compareNumbers Extended.lt y x
      | _ => compareNumbers Extended.le y x) := by
  unfold ordered
  split
  · cases hx
  · rw [hx, hy]
    rfl

theorem compareNumbers_iff {r : Extended → Extended → Bool} :
    compareNumbers r x y = true ↔
      ∃ p q, x.number? = some p ∧ y.number? = some q ∧ r p q = true := by
  unfold compareNumbers
  cases x.number? <;> cases y.number? <;> simp

/-- A number has nothing inside. -/
theorem equalWithin_of_isNumber (hx : x.isNumber = true) (room : Nat) (y : Value) :
    x.equalWithin room y = .ok (x.same y) := by
  rcases isNumber_iff.1 hx with ⟨n, rfl⟩ | ⟨u, rfl⟩ <;> rfl

/-- Numbers are compared by their exact values, whatever their kinds. -/
theorem ranked_real? : RankedBy real? := by
  intro x y a b hx hy op comparison
  rw [real?_eq, Option.map_eq_some_iff] at hx hy
  obtain ⟨p, hx, rfl⟩ := hx
  obtain ⟨q, hy, rfl⟩ := hy
  have ordered := ordered_of_isNumber (isNumber_of_number? hx) (isNumber_of_number? hy)
  simp only [Operator.comparisons, List.mem_cons, List.not_mem_nil, or_false] at comparison
  rcases comparison with rfl | rfl | rfl | rfl | rfl
  · refine ⟨x.same y, fun room => ?_, ?_⟩
    · rw [Expr.combine, equalWithin_of_isNumber (isNumber_of_number? hx), Outcome.map_ok]
    simp [same_iff_number? (isNumber_of_number? hx), hx, hy, Operator.Relates,
      Extended.toEReal_inj, eq_comm]
  all_goals
    refine ⟨_, fun _ => congrArg (Except.map Value.bool) (ordered _), ?_⟩
    simp [compareNumbers_iff, hx, hy, Operator.Relates, Extended.lt_iff, Extended.le_iff]

/-- No comparison with a NaN is true. -/
theorem combine_of_real?_eq_none (hx : x.isNumber = true) (hy : y.isNumber = true)
    (nan : x.real? = none ∨ y.real? = none) (room : Nat) {op : Operator}
    (comparison : op ∈ Operator.comparisons) : Expr.combine room op x y = .ok (.bool false) := by
  rw [real?_eq, real?_eq, Option.map_eq_none_iff, Option.map_eq_none_iff] at nan
  have unequal : x.same y = false := by
    rw [Bool.eq_false_iff, Ne, same_iff_number? hx]
    rintro ⟨p, first, second⟩
    simp [first, second] at nan
  have unordered (r : Extended → Extended → Bool) :
      compareNumbers r x y = false ∧ compareNumbers r y x = false := by
    constructor <;>
    · rw [Bool.eq_false_iff, Ne, compareNumbers_iff]
      rintro ⟨p, q, first, second, -⟩
      simp [first, second] at nan
  have ordered := ordered_of_isNumber hx hy
  simp only [Operator.comparisons, List.mem_cons, List.not_mem_nil, or_false] at comparison
  rcases comparison with rfl | rfl | rfl | rfl | rfl
  · rw [Expr.combine, equalWithin_of_isNumber hx, unequal, Outcome.map_ok]
  all_goals
    refine (congrArg (Except.map Value.bool) (ordered _)).trans ?_
    simp [unordered]

end Numbers

section Texts

theorem textLess_iff {s t : List Char} : textLess s t = true ↔
    s.map Char.toNat < t.map Char.toNat := by
  induction s generalizing t with
  | nil => cases t <;> simp [textLess]
  | cons c s ih =>
    cases t with
    | nil => simp [textLess]
    | cons d t =>
      have char : c = d ↔ c.toNat = d.toNat := Char.toNat_inj.symm
      simp [textLess, ih, List.cons_lt_cons_iff, char, Char.lt_def, UInt32.lt_iff_toNat_lt]

theorem map_toNat_inj {s t : String} : s.toList.map Char.toNat = t.toList.map Char.toNat ↔
    s = t := by
  rw [(List.map_injective_iff.2 fun _ _ => Char.toNat_inj.1).eq_iff, String.toList_inj]

/-- Texts are compared by their code points. -/
theorem ranked_codePoints? : RankedBy codePoints? := by
  intro x y a b hx hy op comparison
  cases x <;> simp only [codePoints?, reduceCtorEq, Option.some.injEq] at hx
  cases y <;> simp only [codePoints?, reduceCtorEq, Option.some.injEq] at hy
  subst hx hy
  rename_i s t
  simp only [Operator.comparisons, List.mem_cons, List.not_mem_nil, or_false] at comparison
  rcases comparison with rfl | rfl | rfl | rfl | rfl
  · refine ⟨_, fun _ => rfl, ?_⟩
    simp [same, Operator.Relates, map_toNat_inj]
  all_goals
    refine ⟨_, fun _ => rfl, ?_⟩
    simp [Operator.Relates, textLessEqual, ← textLess_iff, ← not_lt]

end Texts

end Value

/-- Numbers of both kinds, NaNs aside, are totally ordered by their exact values, texts by their
code points; next to a NaN every comparison of numbers is false. -/
theorem Expr.eval_comparison :
    Value.RankedBy Value.real? ∧ Value.TotallyOrdered (fun x => ∃ a, x.real? = some a) ∧
    (∀ x y, x.isNumber = true → y.isNumber = true → x.real? = none ∨ y.real? = none →
      ∀ room, ∀ op ∈ Operator.comparisons, combine room op x y = .ok (.bool false)) ∧
    Value.RankedBy Value.codePoints? ∧
    Value.TotallyOrdered (fun x => ∃ cs, x.codePoints? = some cs) ∧
    ∀ (g : Globals) (scope : Scope) (site : Site) (left right : Expr) (x y : Value) (p : Nat),
      left.eval g scope (site.part 0) = .ok x → right.eval g scope (site.part 1) = .ok y →
        ∀ op ∈ Operator.comparisons, (binary p op left right).eval g scope site =
          combine g.room op x y := by
  refine ⟨Value.ranked_real?, Value.ranked_real?.totallyOrdered, fun x y hx hy nan room op =>
    Value.combine_of_real?_eq_none hx hy nan room, Value.ranked_codePoints?,
      Value.ranked_codePoints?.totallyOrdered, ?_⟩
  intro g scope site left right x y p first second op comparison
  have conjunction : op ≠ .and := fun same => absurd (same ▸ comparison) (by decide)
  have disjunction : op ≠ .or := fun same => absurd (same ▸ comparison) (by decide)
  exact eval_binary first second conjunction disjunction p

/-- The double of 2 ^ 53 is below the next integer, which has no double of its own. -/
example :
    let u := Value.float (Float.ofBits 0x4340000000000000)
    u.same (.int (2 ^ 53)) = true ∧
      Value.compareNumbers Extended.lt u (.int (2 ^ 53 + 1)) = true := by
  decide +kernel

end Stencil
