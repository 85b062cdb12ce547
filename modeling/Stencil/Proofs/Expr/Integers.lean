import Stencil.Proofs.Document.Depth
import Stencil.Proofs.Expr.Steps
import Stencil.Proofs.Number.Exactness

/-! Integers in expressions. What an operator comes to is what it is for integers of any size, or a
fault if that has more than 64 bits; nothing wraps around. -/
namespace Stencil
open Outcome

theorem checkInteger_of_writable {n : Int} (h : Integer.Writable n) (place : RenderFault.Place) :
    checkInteger place n =
      if Integer.fits n then .ok n else
        .error (.mismatch .integer64 (toString n) (some place)) := by
  rw [checkInteger, h.tooWide]

def Integer.checked (place : RenderFault.Place) (n : Int) : Except RenderFault Value :=
  if fits n then .ok (.int n) else .error (.mismatch .integer64 (toString n) (some place))

theorem Integer.checked_eq {n : Int} (h : Writable n) (place : RenderFault.Place) :
    checked place n = (checkInteger place n).map .int := by
  rw [checked, checkInteger_of_writable h]
  split <;> rfl

namespace Value
variable {op : Operator} {m n : Int}

theorem intArithmetic_zero (divides : op.divides = true) :
    intArithmetic op m 0 = .error (.divisionByZero op) := by
  cases op <;> first | rfl | cases divides

theorem exists_exact (arithmetic : op ∈ Operator.arithmetic)
    (defined : ¬(op.divides = true ∧ n = 0)) :
    ∃ r, Integer.Exact m n op r ∧ intArithmetic op m n = checkInteger (.operator op) r := by
  have nonzero (divides : op.divides = true) : n ≠ 0 := fun zero => defined ⟨divides, zero⟩
  simp only [Operator.arithmetic, List.mem_cons, List.not_mem_nil, or_false] at arithmetic
  rcases arithmetic with rfl | rfl | rfl | rfl | rfl
  · exact ⟨m + n, .sum, rfl⟩
  · exact ⟨m - n, .difference, rfl⟩
  · exact ⟨m * n, .product, rfl⟩
  · have exact_ := Integer.exact_divide_iff.2 ⟨nonzero rfl, Integer.quotient_eq_tdiv m n⟩
    exact ⟨Integer.quotient m n, exact_, if_neg (nonzero rfl)⟩
  · have exact_ := Integer.exact_remainder_iff.2 ⟨nonzero rfl, Integer.remainder_eq_tmod m n⟩
    exact ⟨Integer.remainder m n, exact_, if_neg (nonzero rfl)⟩

end Value

namespace Expr
variable {g : Globals} {scope : Scope} {site : Site} {left right : Expr} {x y : Value}

theorem combine_arithmetic {op : Operator} (h : op ∈ Operator.arithmetic) (room : Nat)
    (x y : Value) :
    combine room op x y = x.arithmetic op y ∧ op ≠ .and ∧ op ≠ .or := by
  simp only [Operator.arithmetic, List.mem_cons, List.not_mem_nil, or_false] at h
  rcases h with rfl | rfl | rfl | rfl | rfl <;> exact ⟨rfl, nofun, nofun⟩

theorem call_abs {n : Int} (h : Integer.fits n = true) :
    (Value.int n).member site "abs" [] = Integer.checked (.resultOf "abs") |n| := by
  have small : (|n|).natAbs ≤ 2 ^ 63 := by
    rw [Int.natAbs_abs]
    exact Integer.natAbs_le_of_fits h
  rw [Integer.checked_eq (Integer.writable_of_le small (by decide)), Int.abs_eq_natAbs]
  rfl

/-- Integers of 64 bits under the five operators, a sign, and the operation of the magnitude. -/
theorem eval_exact {m n : Int} (hm : Integer.fits m = true) (hn : Integer.fits n = true)
    (first : left.eval g scope (site.part 0) = .ok (.int m))
    (second : right.eval g scope (site.part 1) = .ok (.int n)) (p : Nat) :
    (∀ op ∈ Operator.arithmetic,
      (∀ op', (binary p op left right).eval g scope site = .error (.divisionByZero op') ↔
        op' = op ∧ op.divides = true ∧ n = 0) ∧
      (¬(op.divides = true ∧ n = 0) → ∃ r, (∀ s, Integer.Exact m n op s ↔ s = r) ∧
        (binary p op left right).eval g scope site = Integer.checked (.operator op) r)) ∧
    (∀ r, Integer.Exact m n .remainder r → Integer.fits r = true) ∧
    (∀ r, Integer.Exact m n .divide r → (Integer.fits r = false ↔ m = -2 ^ 63 ∧ n = -1)) ∧
    (unary p .negate left).eval g scope site = Integer.checked (.unary "-") (-m) ∧
    (Integer.fits (-m) = false ↔ m = -2 ^ 63) ∧
    (member p left "abs" []).eval g scope site = Integer.checked (.resultOf "abs") |m| ∧
    (Integer.fits |m| = false ↔ m = -2 ^ 63) := by
  refine ⟨fun op arithmetic => ?_, ?_, ?_, ?_, Integer.not_fits_neg_iff hm, ?_,
    Integer.not_fits_abs_iff hm⟩
  · obtain ⟨combined, conjunction, disjunction⟩ :=
      combine_arithmetic arithmetic g.room (.int m) (.int n)
    have evaluated : (binary p op left right).eval g scope site =
        (Value.intArithmetic op m n).map .int := by
      rw [eval_binary first second conjunction disjunction, combined]
      rfl
    have exact_ (defined : ¬(op.divides = true ∧ n = 0)) :
        ∃ r, (∀ s, Integer.Exact m n op s ↔ s = r) ∧
          (binary p op left right).eval g scope site = Integer.checked (.operator op) r := by
      obtain ⟨r, exact_, result⟩ := Value.exists_exact arithmetic defined
      refine ⟨r, fun s => ⟨fun h => h.unique exact_, fun h => h ▸ exact_⟩, ?_⟩
      rw [evaluated, result, Integer.checked_eq (exact_.writable hm hn)]
    refine ⟨fun op' => ?_, exact_⟩
    by_cases undefined : op.divides = true ∧ n = 0
    · obtain ⟨divides, rfl⟩ := undefined
      rw [evaluated, Value.intArithmetic_zero divides]
      simp [divides, eq_comm]
    · obtain ⟨r, -, result⟩ := exact_ undefined
      rw [result, Integer.checked]
      split <;> simp [undefined]
  · intro r h
    rw [(Integer.exact_remainder_iff.1 h).2]
    exact Integer.fits_tmod hm
  · intro r h
    rw [(Integer.exact_divide_iff.1 h).2]
    exact Integer.not_fits_tdiv_iff hm
  · have small : (-m).natAbs ≤ 2 ^ 63 := by
      rw [Int.natAbs_neg]
      exact Integer.natAbs_le_of_fits hm
    rw [eval_unary first, Integer.checked_eq (Integer.writable_of_le small (by decide))]
    rfl
  · rw [eval_member first, call_abs hm]

/-- The least integer over minus one: the quotient, the negative and the magnitude are all one too
large, and the remainder is zero. -/
theorem eval_exact_least :
    ∃ (g : Globals) (scope : Scope) (left right : Expr),
      Integer.fits (-2 ^ 63) = true ∧ Integer.fits (-1) = true ∧
      left.eval g scope (Site.top.part 0) = .ok (.int (-2 ^ 63)) ∧
      right.eval g scope (Site.top.part 1) = .ok (.int (-1)) ∧
      (binary 2 .divide left right).eval g scope .top =
        .error (.mismatch .integer64 "9223372036854775808" (some (.operator .divide))) ∧
      (binary 2 .remainder left right).eval g scope .top = .ok (.int 0) ∧
      (unary 2 .negate left).eval g scope .top =
        .error (.mismatch .integer64 "9223372036854775808" (some (.unary "-"))) ∧
      (member 2 left "abs" []).eval g scope .top =
        .error (.mismatch .integer64 "9223372036854775808" (some (.resultOf "abs"))) := by
  let g : Globals := ⟨CipherKey.derived [], ⟨0, []⟩, "turbo.js", 900⟩
  let scope : Scope := [("a", .int (-2 ^ 63)), ("b", .int (-1))]
  have least : Integer.fits (-2 ^ 63) = true := by decide
  have one : Integer.fits (-1) = true := by decide
  have first : (name 0 "a").eval g scope (Site.top.part 0) = .ok (.int (-2 ^ 63)) := by rfl
  have second : (name 4 "b").eval g scope (Site.top.part 1) = .ok (.int (-1)) := by rfl
  obtain ⟨operators, -, -, negated, -, magnitude, -⟩ := eval_exact least one first second 2
  refine ⟨g, scope, name 0 "a", name 4 "b", least, one, first, second, ?_, ?_, negated, magnitude⟩
  · obtain ⟨r, only, result⟩ := (operators .divide (by decide)).2 (by decide)
    have quotient : (2 : Int) ^ 63 = r :=
      (only _).1 (Integer.exact_divide_iff.2 ⟨by decide, by decide⟩)
    rw [result, ← quotient]
    rfl
  · obtain ⟨r, only, result⟩ := (operators .remainder (by decide)).2 (by decide)
    have remainder : (0 : Int) = r :=
      (only _).1 (Integer.exact_remainder_iff.2 ⟨by decide, by decide⟩)
    rw [result, ← remainder]
    rfl

end Expr
end Stencil
