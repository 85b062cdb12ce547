import Stencil.Proofs.Document.Output
import Stencil.Proofs.Expr.Reading

/-! Output of a phrase is parsed back to the expression of the phrase. -/
namespace Stencil.Phrase
open Outcome
open Token (bare Legible Indexed Spelled)
open Stencil.Expr (depthLimit)

theorem legible_bare {kind : Token.Kind} {text : String} {rest : List Token}
    (h : Spelled false kind text.toList)
    (hk : kind ≠ .dot) (hi : kind = .integer → ¬ Indexed rest) (hr : Legible false rest) :
    Legible false (bare kind text :: rest) := by
  refine ⟨h, fun hkind _ => hi hkind, ?_⟩
  rw [Token.bare_kind, beq_false_of_ne hk]
  exact hr

theorem legible_dot {kind : Token.Kind} {text : String} {rest : List Token}
    (h : Spelled true kind text.toList)
    (hk : kind ≠ .dot) (hr : Legible false rest) :
    Legible false (bare .dot "." :: bare kind text :: rest) := by
  refine ⟨.symbol rfl, nofun, h, fun _ => nofun, ?_⟩
  rw [Token.bare_kind, beq_false_of_ne hk]
  exact hr

theorem spelled_toString (afterDot : Bool) (n : Nat) :
    Spelled afterDot .integer (toString n).toList := by
  have htext : (toString n).toList = Nat.toDigits 10 n := by simp
  rw [htext]
  exact .integer ⟨Nat.toDigits_ne_nil,
    fun c hc =>
      Text.isDigit_of_decimalDigit? (Numeral.decimalDigit?_ascii (Numeral.isDigit_toDigits hc))⟩

theorem DecimalDigits.allDigits {cs : List Char} (h : DecimalDigits cs) : Token.AllDigits cs := by
  refine ⟨h.1, fun c hc => ?_⟩
  obtain ⟨d, hd⟩ := Option.isSome_iff_exists.1 (h.2 c hc)
  exact Text.isDigit_of_decimalDigit? hd

theorem spelled_float (l : FloatLiteral) : Spelled false .float l.text.toList := by
  rw [FloatLiteral.text, String.toList_ofList]
  exact .float rfl (DecimalDigits.allDigits l.whole_digits)
    (DecimalDigits.allDigits l.fraction_digits)

theorem spelled_name (x : PlainName) : Spelled false .identifier x.text.toList :=
  Token.spelled_identifier x.isName x.plain

theorem spelled_member (x : Identifier) : Spelled true .identifier x.text.toList :=
  .name x.isName nofun

theorem spelled_operator (op : Operator) :
    Spelled false (.operator op) op.text.toList := .symbol (by cases op <;> rfl)

theorem spelled_sign (op : UnaryOperator) :
    Spelled false (signKind op) op.text.toList := .symbol (by cases op <;> rfl)

theorem not_indexed_cons {t : Token} (h : t.kind ≠ .dot) (rest : List Token) :
    ¬ Indexed (t :: rest) := by
  cases rest with
  | nil => exact id
  | cons u rest => exact fun indexed => h indexed.1

theorem legible_parens {ws rest : List Token}
    (h : ∀ rest, Legible false rest → ¬ Indexed rest → Legible false (ws ++ rest))
    (hr : Legible false rest) : Legible false (enclose true ws ++ rest) := by
  rw [enclose, if_pos rfl, List.cons_append, List.append_assoc]
  have closed : Legible false (bare .rightParen ")" :: rest) :=
    legible_bare (.symbol rfl) (by simp) (by simp) hr
  exact legible_bare (.symbol rfl) (by simp) (by simp) (h _ closed (not_indexed_cons (by simp) _))

theorem legible_enclose (b : Bool) {p : Phrase} {rest : List Token}
    (h : ∀ rest, Legible false rest → (encloseIndexed p = true → ¬ Indexed rest) →
      Legible false (p.words ++ rest))
    (hr : Legible false rest) (hi : b = false → encloseIndexed p = true → ¬ Indexed rest) :
    Legible false (enclose b p.words ++ rest) := by
  cases b with
  | false => exact h rest hr (hi rfl)
  | true => exact legible_parens (fun rest hr hi => h rest hr fun _ => hi) hr

mutual

theorem legible_words (p : Phrase) {rest : List Token} (hr : Legible false rest)
    (hi : encloseIndexed p = true → ¬ Indexed rest) : Legible false (p.words ++ rest) := by
  cases p with
  | integer n fits =>
    rw [words]
    exact legible_bare (spelled_toString false n) nofun (fun _ => hi rfl) hr
  | float l =>
    rw [words]
    exact legible_bare (spelled_float l) nofun nofun hr
  | string s =>
    rw [words]
    exact legible_bare (.string _) nofun nofun hr
  | bool b =>
    rw [words]
    exact legible_bare (.keyword _ rfl) nofun nofun hr
  | null =>
    rw [words]
    exact legible_bare (.keyword _ rfl) nofun nofun hr
  | name x =>
    rw [words]
    exact legible_bare (spelled_name x) nofun nofun hr
  | list items =>
    rw [words, List.cons_append, List.append_assoc]
    exact legible_bare (.symbol rfl) nofun nofun (legible_commaed items
      (legible_bare (.symbol rfl) nofun nofun hr) (not_indexed_cons (by simp) _))
  | call f arguments =>
    rw [words, List.cons_append]
    exact legible_bare (spelled_name f) nofun nofun
      (legible_parens (fun rest => legible_commaed arguments) hr)
  | member target x arguments =>
    rw [words, List.append_assoc]
    refine legible_enclose _ (fun rest => legible_words target) ?_ fun _ _ => nofun
    refine legible_dot (spelled_member x) nofun ?_
    rcases Bool.eq_false_or_eq_true arguments.isEmpty with none | some
    · rw [List.isEmpty_iff.1 none]
      exact hr
    · rw [some]
      exact legible_parens (fun rest => legible_commaed arguments) hr
  | index target n short =>
    rw [words, List.append_assoc]
    refine legible_enclose _ (fun rest => legible_words target) ?_ ?_
    · exact legible_dot (spelled_toString true n) nofun hr
    · intro outside inside
      rw [outside] at inside
      cases inside
  | unary op operand =>
    rw [words, List.cons_append]
    refine legible_bare (spelled_sign op) (by cases op <;> nofun) (by cases op <;> nofun) ?_
    exact legible_enclose _ (fun rest => legible_words operand) hr fun _ _ => hi rfl
  | binary op left right =>
    rw [words, List.append_assoc, List.cons_append]
    refine legible_enclose _ (fun rest => legible_words left) ?_ fun _ _ =>
      not_indexed_cons (by simp) _
    refine legible_bare (spelled_operator op) nofun nofun ?_
    exact legible_enclose _ (fun rest => legible_words right) hr fun _ _ => hi rfl

theorem legible_commaed (ps : List Phrase) {rest : List Token} (hr : Legible false rest)
    (hi : ¬ Indexed rest) :
    Legible false (commaed (allWords ps) ++ rest) := by
  cases ps with
  | nil => exact hr
  | cons p ps =>
    obtain ⟨others, plain⟩ := legible_others ps hr hi
    rw [allWords, commaed, List.append_assoc]
    exact legible_words p others fun _ => plain

theorem legible_others (ps : List Phrase) {rest : List Token} (hr : Legible false rest)
    (hi : ¬ Indexed rest) :
    Legible false ((allWords ps).flatMap (bare .comma "," :: ·) ++ rest) ∧
      ¬ Indexed ((allWords ps).flatMap (bare .comma "," :: ·) ++ rest) := by
  cases ps with
  | nil => exact ⟨hr, hi⟩
  | cons p ps =>
    obtain ⟨others, plain⟩ := legible_others ps hr hi
    rw [allWords, List.flatMap_cons, List.append_assoc, List.cons_append]
    exact ⟨legible_bare (.symbol rfl) nofun nofun (legible_words p others fun _ => plain),
      not_indexed_cons (by simp) _⟩

end

def Bare (ws : List Token) : Prop := ∀ t ∈ ws, t.unplaced = t

theorem bare_enclose (b : Bool) {ws : List Token} (h : Bare ws) : Bare (enclose b ws) := by
  cases b with
  | false => exact h
  | true => simpa [Bare, enclose, or_imp, forall_and] using h

theorem bare_append {u v : List Token} (hu : Bare u) (hv : Bare v) :
    Bare (u ++ v) := List.forall_mem_append.2 ⟨hu, hv⟩

theorem bare_cons (kind : Token.Kind) (text : String) {ws : List Token} (h : Bare ws) :
    Bare (bare kind text :: ws) :=
  List.forall_mem_cons.2 ⟨rfl, h⟩

theorem bare_singleton (kind : Token.Kind) (text : String) :
    Bare [bare kind text] := bare_cons kind text nofun

mutual

theorem bare_words (p : Phrase) : Bare p.words := by
  cases p with
  | integer | float | string | bool | null | name => exact bare_singleton _ _
  | list items => exact bare_cons _ _ (bare_append (bare_commaed items) (bare_singleton _ _))
  | call f arguments => exact bare_cons _ _ (bare_enclose _ (bare_commaed arguments))
  | member target x arguments =>
    exact bare_append (bare_enclose _ (bare_words target))
      (bare_cons _ _ (bare_cons _ _ (bare_enclose _ (bare_commaed arguments))))
  | index target n short =>
    exact bare_append (bare_enclose _ (bare_words target))
      (bare_cons _ _ (bare_singleton _ _))
  | unary op operand => exact bare_cons _ _ (bare_enclose _ (bare_words operand))
  | binary op left right =>
    exact bare_append (bare_enclose _ (bare_words left))
      (bare_cons _ _ (bare_enclose _ (bare_words right)))

theorem bare_commaed (ps : List Phrase) : Bare (commaed (allWords ps)) := by
  cases ps with
  | nil => nofun
  | cons p ps => exact bare_append (bare_words p) (bare_others ps)

theorem bare_others (ps : List Phrase) : Bare ((allWords ps).flatMap (bare .comma "," :: ·)) := by
  cases ps with
  | nil => nofun
  | cons p ps => exact bare_append (bare_cons _ _ (bare_words p)) (bare_others ps)

end

theorem legible_text (p : Phrase) : Legible false p.words := by
  have h := @legible_words p [] trivial fun _ => id
  rwa [List.append_nil] at h

theorem unplaced_words (p : Phrase) : p.words.map Token.unplaced = p.words :=
  (List.map_congr_left (bare_words p)).trans (List.map_id _)

/-- The code of a phrase is read as its expression, unless that is too high. -/
theorem seen_text (p : Phrase) :
    Expr.seen (' ' :: (Token.layout p.words ++ [' '])) =
      limited (p.expr.height ≤ depthLimit) (.ok p.expr) := by
  rw [Expr.seen, Token.scanned_space, Token.scanned_layout p.legible_text, unplaced_words, ok_bind,
    ofTokens_words]

/-- A phrase in an output tag is parsed to its expression if that is at most 64 high, and refused
for its depth if it is higher. -/
theorem parse_text (p : Phrase) :
    (p.expr.height ≤ 64 →
      ∃ e, Document.parse ("<%= " ++ p.text ++ " %>") = .ok ⟨[.output 0 e true]⟩ ∧
      e.unplaced = p.expr) ∧
    (64 < p.expr.height → ∃ place, Document.parse ("<%= " ++ p.text ++ " %>") =
      .error (.at (.tooDeep 64) place)) := by
  have closed := Token.closed_space (Token.closed_layout p.legible_text)
  rw [Document.output_source, text, String.toList_ofList, Document.parse_output closed]
  constructor
  · intro low
    have read := (seen_text p).trans (limited_true low)
    obtain ⟨e, he, same⟩ := Expr.exists_of_seen_ok read (Part.codePlace .escaped .start)
    exact ⟨e, by rw [he, map_ok], same⟩
  · intro high
    have read := (seen_text p).trans (limited_false (Nat.not_le.2 high))
    obtain ⟨fault, hfault, same⟩ := Expr.exists_of_seen_error read (Part.codePlace .escaped .start)
    cases fault with
    | numeral => cases same
    | «at» reason place =>
      cases same
      exact ⟨place, by rw [hfault, map_error]; rfl⟩

end Stencil.Phrase
