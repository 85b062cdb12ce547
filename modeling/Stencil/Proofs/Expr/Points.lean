import Stencil.Proofs.Expr.Labels
import Stencil.Proofs.Token.Standing

/-! What is written in a template where an expression says that it stands. -/
namespace Stencil
open Token (AllDigits IsName Opens Spelled leadingDigits leadingFraction leadingName)

namespace Expr

/-- The text starts with the lexeme of the expression: its name, digits with its value, its
operator, a quote or a bracket. Names and digits are taken as far as they go. -/
def Starts (here : List Char) : Expr → Prop
  | literal _ .null => leadingName here = Keyword.nil.text.toList
  | literal _ (.bool b) => leadingName here = (Phrase.keywordOf b).text.toList
  | literal _ (.int n) | index _ _ n =>
    AllDigits (leadingDigits here) ∧ integerNumeral (String.ofList (leadingDigits here)) = .ok n
  | literal _ (.float x) =>
    ∃ whole fraction, AllDigits whole ∧ AllDigits fraction ∧
      leadingFraction here = whole ++ '.' :: fraction ∧
      leadingFraction here <+: here ∧ floatNumeral (String.ofList (leadingFraction here)) = .ok x
  | literal _ (.string _) => ∃ quote rest, here = quote :: rest ∧ (quote = '"' ∨ quote = '\'')
  | name _ x | member _ _ x _ | call _ x _ => IsName x.toList ∧ leadingName here = x.toList
  | list .. => ['['] <+: here
  | unary _ op _ => op.text.toList <+: here
  | binary _ op _ _ => op.text.toList <+: here
  | literal .. | otherUnary .. | otherBinary .. | foreign .. => False

def Points (text : List Char) (e : Expr) : Prop := e.Starts (text.drop e.position)

end Expr

namespace Token
variable {afterDot : Bool} {t : Token} {e : Expr} {here text : List Char}

theorem Spelled.isName (h : Spelled afterDot .identifier text) : IsName text := by
  cases h with
  | symbol found => exact absurd (mem_symbols found) (by simp [symbols])
  | name isName => exact isName

theorem Spelled.allDigits (h : Spelled afterDot .integer text) : AllDigits text := by
  cases h with
  | symbol found => exact absurd (mem_symbols found) (by simp [symbols])
  | integer digits => exact digits

theorem Spelled.exists_fraction (h : Spelled afterDot .float text) :
    ∃ whole fraction, AllDigits whole ∧ AllDigits fraction ∧ text = whole ++ '.' :: fraction := by
  cases h with
  | symbol found => exact absurd (mem_symbols found) (by simp [symbols])
  | float _ hw hf => exact ⟨_, _, hw, hf, rfl⟩

theorem Heads.position (h : t.Heads e) : e.position = t.place.offset := by cases h <;> rfl

/-- Where a token is written, the node starts that was made of it. -/
theorem Heads.starts (h : t.Heads e) (spelled : Spelled afterDot t.kind t.text.toList)
    (opens : Opens here t.text.toList t.kind) : e.Starts here := by
  have named (hk : t.kind = .identifier) : IsName t.text.toList ∧
      leadingName here = t.text.toList := by
    rw [hk] at spelled opens
    exact ⟨spelled.isName, opens⟩
  have numbered {n : Int} (hk : t.kind = .integer) (hn : Expr.integerNumeral t.text = .ok n) :
      AllDigits (leadingDigits here) ∧ Expr.integerNumeral (String.ofList (leadingDigits here)) =
        .ok n := by
    rw [hk] at spelled opens
    rw [show leadingDigits here = _ from opens, String.ofList_toList]
    exact ⟨spelled.allDigits, hn⟩
  have word {word : Keyword} (hk : t.kind = .keyword word) : leadingName here =
      word.text.toList := by
    rw [hk] at spelled opens
    rw [← spelled.text_of_keyword]
    exact opens
  cases h with
  | integer hk hn => exact numbered hk hn
  | float hk hx =>
    rw [hk] at spelled opens
    obtain ⟨whole, fraction, hw, hf, heq⟩ := spelled.exists_fraction
    obtain ⟨read, inside⟩ := opens
    refine ⟨whole, fraction, hw, hf, read.trans heq, by rwa [read], ?_⟩
    rwa [read, String.ofList_toList]
  | string hk =>
    rw [hk] at opens
    exact opens
  | true hk => exact word hk
  | false hk => exact word hk
  | nil hk => exact word hk
  | name hk => exact named hk
  | list hk =>
    rw [hk] at spelled opens
    have text := spelled.text_of_symbol (show (Kind.leftBracket, ['[']) ∈ symbols by decide)
    rw [Expr.Starts, ← text]
    exact opens
  | member hk => exact named hk
  | index hk hn => exact numbered hk hn
  | call hk => exact named hk
  | @unary op _ found =>
    have hk := Expr.unaryOperator?_eq_some_iff.1 found
    rw [hk] at spelled opens
    rw [Expr.Starts, ← spelled.text_of_symbol (signKind_mem_symbols op)]
    cases op <;> exact opens
  | binary hk =>
    rw [hk] at spelled opens
    rw [Expr.Starts, ← spelled.text_of_symbol (operator_mem_symbols _)]
    exact opens

theorem Stands.keyword {start stop : Nat} {word : Keyword} (h : t.Stands text start stop)
    (hk : t.kind = .keyword word) :
    word.text.toList <+: text.drop t.place.offset ∧
      t.place.offset + word.text.toList.length ≤ stop := by
  obtain ⟨⟨afterDot, spelled⟩, opens, -, within⟩ := h
  have unquoted : t.kind ≠ .string := by simp [hk]
  have written := opens.isPrefix unquoted
  have inside := within unquoted
  rw [hk] at spelled
  rw [spelled.text_of_keyword] at written inside
  exact ⟨written, inside⟩

end Token

namespace Expr
variable {location : Location} {tokens : List Token} {e : Expr} {text : List Char}
    {start stop : Nat}

/-- All of an expression points at its source if its tokens stand there. -/
theorem points_of_ofTokens (h : ofTokens location tokens = .ok e)
    (stands : ∀ t ∈ tokens, t.Stands text start stop) : ∀ part ∈ e.inOrder, part.Points text := by
  intro part inside
  obtain ⟨t, ht, head⟩ := (cover_of_ofTokens h).exists_of_mem inside
  obtain ⟨⟨afterDot, spelled⟩, opens, -⟩ := stands t ht
  rw [Points, head.position]
  exact head.starts spelled opens

end Expr
end Stencil
