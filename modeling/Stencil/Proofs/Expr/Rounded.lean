import Stencil.Proofs.Expr.Integers
import Stencil.Proofs.Number.Negation
import Stencil.Proofs.Number.Rounding
import Stencil.Proofs.Value.Member

/-! Doubles rounded in expressions. The integer is that of the exact value, or there is a fault: it
has more than 64 bits, or there is no exact value to be rounded. -/
namespace Stencil
open Outcome

namespace Operation
variable {o : Operation} {called : String} {u : Float} {q : Rat}

theorem mem_kinds_of_rounding (h : o ∈ roundings) : Value.Kind.float ∈ o.kinds := by
  have each : ∀ o ∈ roundings, Value.Kind.float ∈ o.kinds := by decide
  exact each o h

/-- What an operation comes to before the integer is told from the fault. -/
theorem apply_rounding (h : o ∈ roundings) (called : String) (u : Float) :
    ∃ r, o.apply called (.float u) = integerOf called u r ∧
      r.toOption = (rounded o.rule u).toOption := by
  simp only [roundings, List.mem_cons, List.not_mem_nil, or_false] at h
  rcases h with rfl | rfl | rfl | rfl
  · exact ⟨_, rfl, rfl⟩
  · exact ⟨_, rfl, rfl⟩
  · exact ⟨_, rfl, rfl⟩
  · refine ⟨_, rfl, ?_⟩
    change (roundedNearest u).toOption = (rounded Rounding.nearest u).toOption
    unfold roundedNearest
    cases rounded Rounding.nearest u <;> rfl

end Operation

namespace Value
open Operation
variable {o : Operation} {called : String} {u : Float} {q : Rat}

theorem member_finite (site : Site) (h : o ∈ roundings) (hc : called ∈ o.names)
    (finite : Extended.ofFloat? u = some (.finite q)) :
    (float u).member site called [] = Integer.checked (.resultOf called) (o.rule q) := by
  obtain ⟨r, applied, outcome⟩ := apply_rounding h called u
  have whole : rounded o.rule u = .ok (o.rule q) := by rw [rounded, finite]
  rw [whole] at outcome
  have writable := writable_rounded (fun _ _ => Rounding.abs_rule_le h) whole
  rw [member_operation site (mem_kinds_of_rounding h) hc, applied, eq_ok_of_toOption outcome,
    Integer.checked_eq writable]
  rfl

theorem member_not_finite (site : Site) (h : o ∈ roundings) (hc : called ∈ o.names)
    (none : ∀ q, Extended.ofFloat? u ≠ some (.finite q)) :
    ∃ found place, (float u).member site called [] =
      .error (.mismatch (.acceptedBy called) found (some place)) := by
  obtain ⟨r, applied, outcome⟩ := apply_rounding h called u
  rw [member_operation site (mem_kinds_of_rounding h) hc, applied]
  cases r with
  | error cause => exact ⟨_, _, rfl⟩
  | ok n =>
    rw [rounded] at outcome
    split at outcome
    · cases outcome
    · exact absurd ‹_› (none _)
    · cases outcome

/-- An integer comes out of a finite double only. -/
theorem finite_of_member {site : Site} {n : Int} (h : o ∈ roundings) (hc : called ∈ o.names)
    (result : (float u).member site called [] = .ok (.int n)) :
    ∃ q, Extended.ofFloat? u = some (.finite q) ∧ n = o.rule q := by
  by_cases finite : ∃ q, Extended.ofFloat? u = some (.finite q)
  · obtain ⟨q, finite⟩ := finite
    rw [member_finite site h hc finite, Integer.checked] at result
    split at result
    · cases result
      exact ⟨q, finite, rfl⟩
    · cases result
  · obtain ⟨found, place, refused⟩ := member_not_finite site h hc (not_exists.1 finite)
    cases refused.symm.trans result

end Value

theorem Extended.ofFloat?_eq_finite_iff {u : Float} {q : Rat} :
    ofFloat? u = some (.finite q) ↔ ∃ d, Binary64.parts u = .finite d ∧ q = d.value := by
  rw [ofFloat?]
  rcases Binary64.parts u with _ | (_ | _) | d
  · simp
  · simp
  · simp
  · simp [Binary64.ofDyadic_eq_value, eq_comm]

namespace Expr
open Operation
variable {g : Globals} {scope : Scope} {site : Site} {left : Expr}

/-- The four ways to round a double. Each gives the integer of the exact value if that has 64 bits;
none is defined for a NaN or an infinity. Among the integers that do come out, those rounded down
are never above the others nor those rounded up below them, and the nearest one of the negative is
the negative. -/
theorem eval_rounding {u : Float} (first : left.eval g scope (site.part 0) = .ok (.float u))
    (p : Nat) :
    let result (called : String) := (member p left called []).eval g scope site
    (∀ o ∈ roundings, ∀ called ∈ o.names,
      (∀ d, Binary64.parts u = .finite d → ∃ n, (∀ m, Rounding.Rounds d.value o m ↔ m = n) ∧
        result called = Integer.checked (.resultOf called) n) ∧
      ((∀ d, Binary64.parts u ≠ .finite d) → ∃ found place,
        result called = .error (.mismatch (.acceptedBy called) found (some place)))) ∧
    (∀ q m n, Rounding.Rounds q .round n → m ≠ n →
      |q - n| < |q - m| ∨ |q - n| = |q - m| ∧ |m| < |n|) ∧
    (∀ o ∈ [Operation.toInteger, .round], ∀ called ∈ o.names, ∀ m n,
      (result "floor" = .ok (.int m) → result called = .ok (.int n) → m ≤ n) ∧
      (result called = .ok (.int m) → result "ceil" = .ok (.int n) → m ≤ n)) ∧
    (left.eval g scope ((site.part 0).part 0) = .ok (.float u) →
      ∀ m n, result "round" = .ok (.int m) →
      (member p (unary p .negate left) "round" []).eval g scope site = .ok (.int n) → n = -m) := by
  intro result
  have evaluated (called : String) : result called = (Value.float u).member site called [] :=
    eval_member first p called
  refine ⟨fun o h called hc => ⟨fun d finite => ?_, fun none => ?_⟩, ?_, ?_, ?_⟩
  · have rounds := Rounding.rounds_rule h d.value
    refine ⟨o.rule d.value,
      fun m => ⟨fun other => other.unique rounds, fun same => same ▸ rounds⟩, ?_⟩
    rw [evaluated]
    exact Value.member_finite site h hc (Extended.ofFloat?_eq_finite_iff.2 ⟨d, finite, rfl⟩)
  · rw [evaluated]
    refine Value.member_not_finite site h hc fun q finite => ?_
    obtain ⟨d, finite, -⟩ := Extended.ofFloat?_eq_finite_iff.1 finite
    exact none d finite
  · intro q m n rounds other
    obtain rfl := rounds.unique (Rounding.rounds_rule (by decide) q)
    exact Rounding.nearest_nearest other
  · intro o between called hc m n
    have h : o ∈ roundings := by
      have each : ∀ o ∈ [Operation.toInteger, .round], o ∈ roundings := by decide
      exact each o between
    have bounds (q : Rat) : q.floor ≤ o.rule q ∧ o.rule q ≤ q.ceil := by
      simp only [List.mem_cons, List.not_mem_nil, or_false] at between
      rcases between with rfl | rfl
      · exact Rounding.truncate_between q
      · exact Rounding.nearest_between q
    rw [evaluated, evaluated, evaluated]
    constructor
    · intro lowered rounded
      obtain ⟨q, finite, rfl⟩ :=
        Value.finite_of_member (o := .floor) (by decide) (by decide) lowered
      obtain ⟨r, finite', rfl⟩ := Value.finite_of_member h hc rounded
      cases finite.symm.trans finite'
      exact (bounds q).1
    · intro rounded raised
      obtain ⟨q, finite, rfl⟩ := Value.finite_of_member h hc rounded
      obtain ⟨r, finite', rfl⟩ := Value.finite_of_member (o := .ceil) (by decide) (by decide) raised
      cases finite.symm.trans finite'
      exact (bounds q).2
  · intro inner m n rounded negated
    have below : (unary p .negate left).eval g scope (site.part 0) = .ok (.float u.neg) :=
      eval_unary inner p .negate
    rw [eval_member below] at negated
    rw [evaluated] at rounded
    obtain ⟨q, finite, rfl⟩ := Value.finite_of_member (o := .round) (by decide) (by decide) rounded
    obtain ⟨r, finite', rfl⟩ := Value.finite_of_member (o := .round) (by decide) (by decide) negated
    cases (Extended.ofFloat?_neg finite).symm.trans finite'
    exact Rounding.nearest_neg q

/-- The greatest double below a half. With a half added to it as a double it would be one; the
nearest integer is zero. -/
theorem eval_rounding_half :
    ∃ (g : Globals) (scope : Scope) (left : Expr),
      left.eval g scope (Site.top.part 0) = .ok (.float (Float.ofBits 0x3FDFFFFFFFFFFFFF)) ∧
      (member 1 left "round" []).eval g scope .top = .ok (.int 0) ∧
      (member 1 left "ceil" []).eval g scope .top = .ok (.int 1) := by
  let g : Globals := ⟨CipherKey.derived [], ⟨0, []⟩, "turbo.js", 900⟩
  let u := Float.ofBits 0x3FDFFFFFFFFFFFFF
  have first : (name 0 "x").eval g [("x", .float u)] (Site.top.part 0) = .ok (.float u) := by rfl
  have finite : Binary64.parts u = .finite ⟨false, 2 ^ 53 - 1, -54⟩ := by decide +kernel
  have value : (⟨false, 2 ^ 53 - 1, -54⟩ : Binary64.Finite).value = 1 / 2 - 1 / 2 ^ 54 := by
    norm_num [Binary64.Finite.value]
  obtain ⟨each, -⟩ := eval_rounding first 1
  have rounded {o : Operation} {called : String} (h : o ∈ roundings) (hc : called ∈ o.names) :
      (member 1 (name 0 "x") called []).eval g [("x", .float u)] .top =
        Integer.checked (.resultOf called) (o.rule (1 / 2 - 1 / 2 ^ 54)) := by
    obtain ⟨n, only, result⟩ := (each o h called hc).1 _ finite
    rw [← value, (only _).1 (Rounding.rounds_rule h _)]
    exact result
  refine ⟨g, [("x", .float u)], name 0 "x", first, ?_, ?_⟩
  · rw [rounded (o := .round) (by decide) (by decide), show Operation.round.rule _ =
      0 by decide +kernel]
    rfl
  · rw [rounded (o := .ceil) (by decide) (by decide), show Operation.ceil.rule _ =
      1 by decide +kernel]
    rfl

end Expr
end Stencil
