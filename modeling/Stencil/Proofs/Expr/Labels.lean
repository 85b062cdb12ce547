import Mathlib
import Stencil.Proofs.Expr.Order
import Stencil.Proofs.Expr.Phrase

/-! What the nodes of an expression say is what the tokens of its code say, word for word. -/
namespace Stencil

/-- What a token or a node says: a number by its value, anything else by its kind and text. -/
inductive Label where
  | integer (n : Int)
  | float (x : Float)
  | word (kind : Token.Kind) (text : String)

namespace Token
open Stencil.Expr (integerNumeral floatNumeral)

def label? (t : Token) : Option Label :=
  match t.kind with
  | .integer => (integerNumeral t.text).toOption.map .integer
  | .float => (floatNumeral t.text).toOption.map .float
  | kind => some (.word kind t.text)

def Kind.isPunctuation (kind : Kind) : Bool := kind.isSilent || kind == .leftBracket

end Token

namespace Expr
open Phrase (signKind keywordOf)

def literalLabel? : Value → Option Label
  | .null => some (.word (.keyword .nil) Keyword.nil.text)
  | .bool b => some (.word (.keyword (keywordOf b)) (keywordOf b).text)
  | .int n => some (.integer n)
  | .float x => some (.float x)
  | .string s => some (.word .string s)
  | _ => none

/-- What a node says itself, without those inside. A list says nothing but its items. -/
def label? : Expr → Option Label
  | literal _ v => literalLabel? v
  | name _ x | member _ _ x _ | call _ x _ => some (.word .identifier x)
  | index _ _ n => some (.integer n)
  | unary _ op _ => some (.word (signKind op) op.text)
  | binary _ op _ _ => some (.word (.operator op) op.text)
  | list .. | otherUnary .. | otherBinary .. | foreign .. => none

theorem unaryOperator?_eq_some_iff {kind : Token.Kind} {op : UnaryOperator} :
    unaryOperator? kind = some op ↔ kind = signKind op := by
  constructor
  · intro found
    unfold unaryOperator? at found
    split at found
    · cases found
      rfl
    · cases found
      rfl
    · cases found
      rfl
    · cases found
  · rintro rfl
    cases op <;> rfl

end Expr

namespace Token
open Phrase (signKind keywordOf)
variable {afterDot : Bool} {kind : Kind} {text text' : List Char} {t : Token} {e : Expr}
    {tokens : List Token}
  {nodes : List Expr}

theorem Spelled.text_of_symbol (h : Spelled afterDot kind text) (known : (kind, text') ∈ symbols) :
    text = text' := by
  cases h with
  | symbol found => exact symbols_unique (mem_symbols found) known
  | string | integer | float | name | keyword => exact absurd known (by simp [symbols])

theorem Spelled.text_of_keyword {word : Keyword} (h : Spelled afterDot (.keyword word) text) :
    text = word.text.toList := by
  cases h with
  | symbol found => exact absurd (mem_symbols found) (by simp [symbols])
  | keyword => rfl

theorem operator_mem_symbols (op : Operator) : (Kind.operator op, op.text.toList) ∈ symbols := by
  cases op <;> decide

theorem signKind_mem_symbols (op : UnaryOperator) : (signKind op, op.text.toList) ∈ symbols := by
  cases op <;> decide

/-- A node says what the token says that it was made of. -/
theorem Heads.label?_eq (h : t.Heads e) (spelled : Spelled afterDot t.kind t.text.toList)
    (open_ : t.kind ≠ .leftBracket) : ∃ label, t.label? = some label ∧ e.label? = some label := by
  have word {word : Keyword} (hk : t.kind = .keyword word) : t.label? =
      some (.word (.keyword word) word.text) := by
    rw [hk] at spelled
    rw [label?, hk, String.toList_injective spelled.text_of_keyword]
  cases h with
  | integer hk hn => exact ⟨_, by rw [label?, hk, hn]; rfl, rfl⟩
  | float hk hx => exact ⟨_, by rw [label?, hk, hx]; rfl, rfl⟩
  | string hk => exact ⟨_, by rw [label?, hk], rfl⟩
  | true hk => exact ⟨_, word hk, rfl⟩
  | false hk => exact ⟨_, word hk, rfl⟩
  | nil hk => exact ⟨_, word hk, rfl⟩
  | name hk => exact ⟨_, by rw [label?, hk], rfl⟩
  | list hk => exact absurd hk open_
  | member hk => exact ⟨_, by rw [label?, hk], rfl⟩
  | index hk hn => exact ⟨_, by rw [label?, hk, hn]; rfl, rfl⟩
  | call hk => exact ⟨_, by rw [label?, hk], rfl⟩
  | @unary op _ found =>
    have hk := Expr.unaryOperator?_eq_some_iff.1 found
    have text := spelled.text_of_symbol (hk ▸ signKind_mem_symbols op)
    refine ⟨_, ?_, rfl⟩
    rw [label?, hk, String.toList_injective text]
    cases op <;> rfl
  | @binary op _ _ hk =>
    have text := spelled.text_of_symbol (hk ▸ operator_mem_symbols op)
    exact ⟨_, by rw [label?, hk, String.toList_injective text], rfl⟩

theorem Heads.label?_eq_none (h : t.Heads e) (opening : t.kind = .leftBracket) :
    e.label? = none := by
  cases h with
  | list => rfl
  | unary found => rw [opening] at found; cases found
  | _ => simp_all

theorem labels_of_heads (h : List.Forall₂ Heads tokens nodes)
    (spelled : ∀ t ∈ tokens, ∃ b, Spelled b t.kind t.text.toList) :
    (tokens.filter fun t => !(t.kind == .leftBracket)).map label? =
      (nodes.filterMap Expr.label?).map some := by
  induction h with
  | nil => rfl
  | @cons t e ts es head _ ih =>
    obtain ⟨⟨b, own⟩, others⟩ := List.forall_mem_cons.1 spelled
    by_cases opening : t.kind = .leftBracket
    · rw [List.filter_cons_of_neg (by simpa using opening),
        List.filterMap_cons_none (head.label?_eq_none opening)]
      exact ih others
    · obtain ⟨label, token, node⟩ := head.label?_eq own opening
      rw [List.filter_cons_of_pos (by simpa using opening), List.filterMap_cons_some node,
        List.map_cons, token, List.map_cons, ih others]

theorem Cover.labels (h : Cover tokens nodes)
    (spelled : ∀ t ∈ tokens, ∃ b, Spelled b t.kind t.text.toList) :
    (tokens.filter fun t => !t.kind.isPunctuation).map label? =
      (nodes.filterMap Expr.label?).map some := by
  have apart : tokens.filter (fun t => !t.kind.isPunctuation) =
      (tokens.filter fun t => !t.kind.isSilent).filter fun t => !(t.kind == .leftBracket) := by
    rw [List.filter_filter]
    exact List.filter_congr fun t _ => by rw [Kind.isPunctuation, Bool.not_or, Bool.and_comm]
  rw [apart]
  exact labels_of_heads h fun t ht => spelled t (List.mem_of_mem_filter ht)

end Token

namespace Expr

/-- Where a code ends in an expression, nothing of it is lost, told twice or put elsewhere: its
tokens without brackets, commas and dots say, one after another, what the nodes of the expression
say in their order. -/
theorem labels_of_ofTokens {place stop : Location} {code : String}
    {tokens before words : List Token} {e : Expr}
    (scanned : Token.ofCode place code = .ok (tokens, stop)) (split : tokens = before ++ words)
    (h : ofTokens stop words = .ok e) :
    (words.filter fun t => !t.kind.isPunctuation).map Token.label? =
      (e.inOrder.filterMap label?).map some ∧
      read stop words = .ok (e, []) := by
  have lexed := Token.scan_lexed scanned
  refine ⟨(cover_of_ofTokens h).labels fun t ht => lexed.of_mem ?_, ofTokens_eq_ok_iff.1 h⟩
  rw [split]
  exact List.mem_append_right before ht

theorem labels_of_ofTokens_if :
    ∃ tokens stop before words e, Token.ofCode ⟨2, 1, 3⟩ " if -a.f(1,)" = .ok (tokens, stop) ∧
      tokens = before ++ words ∧ ofTokens stop words = .ok e ∧
      (words.filter fun t => !t.kind.isPunctuation).map Token.label? =
        (e.inOrder.filterMap label?).map some := by
  have scanned : Token.ofCode ⟨2, 1, 3⟩ " if -a.f(1,)" = .ok
      ([⟨.keyword .if_, "if", ⟨3, 1, 4⟩, 2⟩] ++
        [⟨.operator .subtract, "-", ⟨6, 1, 7⟩, 1⟩, ⟨.identifier, "a", ⟨7, 1, 8⟩, 1⟩,
          ⟨.dot, ".", ⟨8, 1, 9⟩, 1⟩, ⟨.identifier, "f", ⟨9, 1, 10⟩, 1⟩,
          ⟨.leftParen, "(", ⟨10, 1, 11⟩, 1⟩, ⟨.integer, "1", ⟨11, 1, 12⟩, 1⟩,
          ⟨.comma, ",", ⟨12, 1, 13⟩, 1⟩, ⟨.rightParen, ")", ⟨13, 1, 14⟩, 1⟩], ⟨14, 1, 15⟩) := by cbv
  obtain ⟨same, read⟩ :=
    labels_of_ofTokens (e := .unary 6 .negate (.member 9 (.name 7 "a") "f" [.literal 11 (.int 1)]))
      scanned rfl
      (by cbv)
  exact ⟨_, _, _, _, _, scanned, rfl, ofTokens_eq_ok_iff.2 read, same⟩

end Expr
end Stencil
