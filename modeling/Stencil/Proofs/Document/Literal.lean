import Stencil.Proofs.Document.Append

/-! Any text as a string literal. Between quotes of either kind, with backslashes before backslashes
and before quotes of that kind, it is put out as it is, whatever delimiters and line ends are
inside. -/
namespace Stencil
open Outcome

def Document.literal (mark : Char) (s : String) : String :=
  String.ofList (Token.quoteBy mark s.toList)

section Literal
variable {mark : Char} (hm : Token.IsMark mark)
include hm

theorem Token.scanned_literal (s : String) :
    scanned false (quoteBy mark s.toList ++ [' ']) = .ok [bare .string s] := by
  have blank : isSpace mark = false := by rcases hm with rfl | rfl <;> decide
  have found := lexeme_guarded hm false s.toList [' ']
  have whole : guarded mark s.toList ++ mark :: [' '] =
      guarded mark s.toList ++ [mark] ++ [' '] := by simp
  rw [whole] at found
  rw [quoteBy, scanned_lexeme blank found, scanned_space, scanned_nil, String.ofList_toList]
  rfl

theorem spells_literal (s : String) :
    Spells (Document.literal mark s) (.literal 0 (.string s)) := by
  refine spells_of_seen (Token.closed_quoteBy hm _ (Token.closed_space ⟨rfl, Quotes.guarded_nil _⟩))
    ?_
  rw [Expr.seen, Token.scanned_literal hm, ok_bind]
  rfl

end Literal

namespace Document
variable {a b p q s t : String} {mark : Char}

/-- The template compiles, and whatever the scope is, it is rendered to the text. -/
def Gives (template text : String) : Prop :=
  ∃ d, parse template = .ok d ∧ ∀ (g : Globals) (scope : Scope), d.render g scope = .ok text

theorem Gives.append (ha : Gives a s) (hb : Gives b t)
    (seam : ¬ (a.toList.getLast? = some '<' ∧ b.toList.head? = some '%')) :
    Gives (a ++ b) (s ++ t) := by
  obtain ⟨da, parsed, first⟩ := ha
  obtain ⟨db, parsed', second⟩ := hb
  obtain ⟨d, whole, joined⟩ := parse_append parsed parsed' seam
  refine ⟨d, whole, fun g scope => ?_⟩
  have left := (render_unplaced_of_parse parsed g scope).trans (first g scope)
  have right := (render_unplaced_of_parse parsed' g scope).trans (second g scope)
  rw [render, pieces] at left right
  rw [← render_unplaced_of_parse whole, render, pieces, Node.renderAll_joined joined, left, right]
  rfl

/-- A template that is one output tag. -/
theorem parse_output_of_spells {text : String} {e : Expr} (h : Spells text e) (escape : Bool) :
    ∃ d, parse ((if escape then "<%= " else "<%- ") ++ text ++ " %>") = .ok d ∧
      d.unplaced.nodes = [.output 0 e.unplaced escape] := by
  let whole : Document := ⟨[.output 0 e escape]⟩
  let spell : Expr → String := fun _ => text
  have spelled : ∀ e' ∈ whole.expressions, Spells (spell e') e' := by
    intro e' member
    obtain rfl : e' = e := List.mem_singleton.1 member
    exact h
  have writable : Node.NodesWritable whole.nodes := ⟨trivial, nofun, trivial⟩
  obtain ⟨d, parsed, same⟩ := parse_write_of_writable writable (Nat.zero_le _) spelled
  have source : whole.write spell = (if escape then "<%= " else "<%- ") ++ text ++ " %>" := by
    cases escape <;> simp [whole, spell, write, parts, Node.nodesActions, Node.actions, Action.part,
      Part.source, TagKind.opener, Part.closer, ← String.toList_inj]
  exact ⟨d, source ▸ parsed, by rw [same]; rfl⟩

theorem gives_literal (hm : Token.IsMark mark) (s : String) (escape : Bool) :
    Gives ((if escape then "<%= " else "<%- ") ++ literal mark s ++ " %>")
      (if escape then Text.escapeMarkup s else s) := by
  obtain ⟨d, parsed, nodes⟩ := parse_output_of_spells (spells_literal hm s) escape
  refine ⟨d, parsed, fun g scope => ?_⟩
  rw [← render_unplaced_of_parse parsed, render, pieces, nodes]
  have single (text : String) : String.join [text] = text := by simp
  exact congrArg Except.ok (single _)

/-- Between two texts without an opening delimiter, a literal gives its text. -/
theorem render_literal (hm : mark = '"' ∨ mark = '\'') (hp : ¬ ['<', '%'] <:+: p.toList)
    (hq : ¬ ['<', '%'] <:+: q.toList) (s : String) :
    (∃ d, parse (p ++ "<%- " ++ literal mark s ++ " %>" ++ q) = .ok d ∧
      ∀ (g : Globals) (scope : Scope), d.render g scope = .ok (p ++ s ++ q)) ∧
    ∃ d, parse (p ++ "<%= " ++ literal mark s ++ " %>" ++ q) = .ok d ∧
      ∀ (g : Globals) (scope : Scope), d.render g scope = .ok (p ++ Text.escapeMarkup s ++ q) := by
  have embedded (escape : Bool) :
      Gives (p ++ ((if escape then "<%= " else "<%- ") ++ literal mark s ++ " %>") ++ q)
      (p ++ (if escape then Text.escapeMarkup s else s) ++ q) := by
    have before : Gives p p := parse_literal hp
    have behind : Gives q q := parse_literal hq
    refine (before.append (gives_literal hm s escape) ?_).append behind ?_
    · cases escape <;> simp
    · simp
  constructor
  · simpa [Gives, String.append_assoc] using embedded false
  · simpa [Gives, String.append_assoc] using embedded true

theorem render_literal_delimiters :
    literal '"' "%>\\\n'\"<%" = "\"%>\\\\\n'\\\"<%\"" ∧
    literal '\'' "%>\\\n'\"<%" = "'%>\\\\\n\\'\"<%'" ∧
    (∃ d, parse ("a" ++ "<%- " ++ "\"%>\\\\\n'\\\"<%\"" ++ " %>" ++ "b") = .ok d ∧
      ∀ (g : Globals) (scope : Scope), d.render g scope = .ok ("a" ++ "%>\\\n'\"<%" ++ "b")) ∧
    ∃ d, parse ("a" ++ "<%= " ++ "'%>\\\\\n\\'\"<%'" ++ " %>" ++ "b") = .ok d ∧
      ∀ (g : Globals) (scope : Scope),
        d.render g scope = .ok ("a" ++ "%&gt;\\\n&#39;&#34;&lt;%" ++ "b") := by
  have double : literal '"' "%>\\\n'\"<%" = "\"%>\\\\\n'\\\"<%\"" := by decide
  have single : literal '\'' "%>\\\n'\"<%" = "'%>\\\\\n\\'\"<%'" := by decide
  have escaped : Text.escapeMarkup "%>\\\n'\"<%" = "%&gt;\\\n&#39;&#34;&lt;%" := by decide
  have raw :=
    (render_literal (p := "a") (q := "b") (.inl rfl) (by decide) (by decide) "%>\\\n'\"<%").1
  have safe :=
    (render_literal (p := "a") (q := "b") (.inr rfl) (by decide) (by decide) "%>\\\n'\"<%").2
  rw [double] at raw
  rw [single, escaped] at safe
  exact ⟨double, single, raw, safe⟩

end Document
end Stencil
