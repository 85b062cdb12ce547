import Stencil.Proofs.Expr.Integers
import Stencil.Proofs.Text.Removal

/-! The difference of two texts in expressions: the first without the leftmost occurrences of the
second. -/
namespace Stencil.Expr
variable {g : Globals} {scope : Scope} {site : Site} {left right : Expr}

/-- Less the empty text, a text stays what it is. Any other text parts it in one way, with the first
occurrence behind each piece and none in the last one, and the difference is made of these pieces:
an occurrence that overlaps one before it stays in part, and one that comes about where two pieces
meet stays whole. -/
theorem eval_difference {s t : String} (first : left.eval g scope (site.part 0) = .ok (.string s))
    (second : right.eval g scope (site.part 1) = .ok (.string t)) (p : Nat) :
    (t = "" → (binary p .subtract left right).eval g scope site = .ok (.string s)) ∧
    (t ≠ "" → ∃ us u, (∀ vs v, Text.Parted t.toList s.toList vs v ↔ vs = us ∧ v = u) ∧
      (binary p .subtract left right).eval g scope site =
        .ok (.string (String.ofList (us.flatten ++ u))) ∧
      (String.ofList (us.flatten ++ u)).length + us.length * t.length = s.length) := by
  have listed : Operator.subtract ∈ Operator.arithmetic := by decide
  obtain ⟨combined, conjunction, disjunction⟩ :=
    combine_arithmetic listed g.room (.string s) (.string t)
  have evaluated : (binary p .subtract left right).eval g scope site =
      .ok (.string (String.ofList (Text.remove t.toList s.toList))) := by
    rw [eval_binary first second conjunction disjunction, combined]
    rfl
  refine ⟨?_, fun nonempty => ?_⟩
  · rintro rfl
    rw [evaluated, String.toList_empty, Text.remove, String.ofList_toList]
  · have some : t.toList ≠ [] := fun none => nonempty (String.toList_eq_nil_iff.1 none)
    obtain ⟨us, u, parted, stays⟩ := Text.remove_parted some s.toList
    refine ⟨us, u, fun vs v => ⟨fun other => other.unique parted, ?_⟩, ?_, ?_⟩
    · rintro ⟨rfl, rfl⟩
      exact parted
    · rw [evaluated, stays]
    · rw [String.length_ofList, ← String.length_toList (s := t), ← String.length_toList (s := s)]
      exact parted.length

/-- Two occurrences that overlap: the first one goes, and what stands around it makes up another
one. -/
theorem eval_difference_overlapping :
    ∃ (g : Globals) (scope : Scope) (left right : Expr),
      left.eval g scope (Site.top.part 0) = .ok (.string "aababa") ∧
      right.eval g scope (Site.top.part 1) = .ok (.string "aba") ∧
      (binary 2 .subtract left right).eval g scope .top = .ok (.string "aba") := by
  let g : Globals := ⟨CipherKey.derived [], ⟨0, []⟩, "turbo.js", 900⟩
  let scope : Scope := [("a", .string "aababa"), ("b", .string "aba")]
  have first : (name 0 "a").eval g scope (Site.top.part 0) = .ok (.string "aababa") := by rfl
  have second : (name 4 "b").eval g scope (Site.top.part 1) = .ok (.string "aba") := by rfl
  obtain ⟨us, u, only, result, -⟩ := (eval_difference first second 2).2 (by decide)
  have parted : Text.Parted "aba".toList "aababa".toList [['a']] ['b', 'a'] := by decide
  obtain ⟨rfl, rfl⟩ := (only _ _).1 parted
  exact ⟨g, scope, name 0 "a", name 4 "b", first, second, result⟩

end Stencil.Expr
