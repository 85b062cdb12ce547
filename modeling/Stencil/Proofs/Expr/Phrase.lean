import Mathlib
import Stencil.Expr.Parser
import Stencil.Proofs.Token.Layout

/-! Expressions as they are written: the trees that have a text, the tokens of that text with no
more parentheses than needed, and the expression that the tree stands for. -/
namespace Stencil
open Token (bare)

structure Identifier where
  text : String
  isName : Token.IsName text.toList

structure PlainName extends Identifier where
  plain : Keyword.ofText? text = none

def DecimalDigits (cs : List Char) : Prop := cs ≠ [] ∧ ∀ c ∈ cs, Numeral.isDecimalDigit c = true

structure FloatLiteral where
  whole : List Char
  fraction : List Char
  whole_digits : DecimalDigits whole
  fraction_digits : DecimalDigits fraction

namespace FloatLiteral

def text (l : FloatLiteral) : String := String.ofList (l.whole ++ '.' :: l.fraction)

def value (l : FloatLiteral) : Float :=
  Numeral.decimal false (Numeral.ofDigits ((l.whole ++ l.fraction).filterMap Text.decimalDigit?))
    (-l.fraction.length)

end FloatLiteral

inductive Phrase where
  | integer (n : Nat) (fits : n < 2 ^ 63)
  | float (l : FloatLiteral)
  | string (s : String)
  | bool (b : Bool)
  | null
  | name (x : PlainName)
  | list (items : List Phrase)
  | call (f : PlainName) (arguments : List Phrase)
  | member (target : Phrase) (x : Identifier) (arguments : List Phrase)
  | index (target : Phrase) (n : Nat) (short : n < 10 ^ NumeralFault.digitLimit)
  | unary (op : UnaryOperator) (operand : Phrase)
  | binary (op : Operator) (left right : Phrase)

namespace Phrase
open Stencil.Expr (height heights)

/-- How tight a phrase binds: a binary operation as its operator, everything else tightest. -/
def level : Phrase → Nat
  | binary op _ _ => op.level
  | _ => Operator.levels

def isTarget : Phrase → Bool
  | unary .. | binary .. => false
  | _ => true

def isInteger : Phrase → Bool
  | integer .. => true
  | _ => false

/-! Where parentheses stand. -/

def encloseLeft (op : Operator) (left : Phrase) : Bool := left.level < op.level

def encloseRight (op : Operator) (right : Phrase) : Bool := right.level ≤ op.level

def encloseOperand : Phrase → Bool
  | binary .. => true
  | _ => false

def encloseTarget (target : Phrase) : Bool := !target.isTarget

/-- Behind a bare integer an index would be its fraction. -/
def encloseIndexed (target : Phrase) : Bool := !target.isTarget || target.isInteger

def enclose (b : Bool) (tokens : List Token) : List Token :=
  if b then bare .leftParen "(" :: (tokens ++ [bare .rightParen ")"]) else tokens

def commaed : List (List Token) → List Token
  | [] => []
  | first :: others => first ++ others.flatMap (bare .comma "," :: ·)

def signKind : UnaryOperator → Token.Kind
  | .not => .not
  | .negate => .operator .subtract
  | .plus => .operator .add

def keywordOf (b : Bool) : Keyword := if b then .true else .false

mutual

def words : Phrase → List Token
  | integer n _ => [bare .integer (toString n)]
  | float l => [bare .float l.text]
  | string s => [bare .string s]
  | bool b => [bare (.keyword (keywordOf b)) (keywordOf b).text]
  | null => [bare (.keyword .nil) Keyword.nil.text]
  | name x => [bare .identifier x.text]
  | list items => bare .leftBracket "[" :: (commaed (allWords items) ++ [bare .rightBracket "]"])
  | call f arguments => bare .identifier f.text :: enclose true (commaed (allWords arguments))
  | member target x arguments =>
    enclose (encloseTarget target) (words target) ++
      bare .dot "." :: bare .identifier x.text ::
        enclose (!arguments.isEmpty) (commaed (allWords arguments))
  | index target n _ =>
    enclose (encloseIndexed target) (words target) ++ [bare .dot ".", bare .integer (toString n)]
  | unary op operand =>
    bare (signKind op) op.text :: enclose (encloseOperand operand) (words operand)
  | binary op left right =>
    enclose (encloseLeft op left) (words left) ++
      bare (.operator op) op.text :: enclose (encloseRight op right) (words right)

def allWords : List Phrase → List (List Token)
  | [] => []
  | p :: rest => words p :: allWords rest

end

/-- The text of a phrase: its tokens with a blank between them, but none around dots. -/
def text (p : Phrase) : String := String.ofList (Token.layout p.words)

mutual

def expr : Phrase → Expr
  | integer n _ => .literal 0 (.int n)
  | float l => .literal 0 (.float l.value)
  | string s => .literal 0 (.string s)
  | bool b => .literal 0 (.bool b)
  | null => .literal 0 .null
  | name x => .name 0 x.text
  | list items => .list 0 (exprs items)
  | call f arguments => .call 0 f.text (exprs arguments)
  | member target x arguments => .member 0 (expr target) x.text (exprs arguments)
  | index target n _ => .index 0 (expr target) n
  | unary op operand => .unary 0 op (expr operand)
  | binary op left right => .binary 0 op (expr left) (expr right)

def exprs : List Phrase → List Expr
  | [] => []
  | p :: rest => expr p :: exprs rest

end

example : (binary .multiply
    (binary .add (integer 1 (by decide))
      (unary .negate (index (integer 2 (by decide)) 0 (Nat.pow_pos (by decide)))))
    (string "a\"b")).text = "( 1 + - ( 2 ).0 ) * \"a\\\"b\"" := by decide

mutual

/-- How many levels the descent opens for a phrase. -/
def need : Phrase → Nat
  | integer .. | float _ | string _ | bool _ | null | name _ => 1
  | list items => 1 + needs items
  | call _ arguments => 1 + needs arguments
  | member target _ arguments =>
    max (need target + (encloseTarget target).toNat) (1 + needs arguments)
  | index target _ _ => need target + (encloseIndexed target).toNat
  | unary _ operand => 1 + (need operand + (encloseOperand operand).toNat)
  | binary op left right =>
    max (need left + (encloseLeft op left).toNat) (need right + (encloseRight op right).toNat)

def needs : List Phrase → Nat
  | [] => 0
  | p :: rest => max (need p) (needs rest)

end

theorem need_pos (p : Phrase) : 0 < p.need := by
  cases p with
  | integer | float | string | bool | null | name | list | call | unary => simp only [need]; omega
  | member target x arguments => simp only [need]; omega
  | index target n =>
    have := need_pos target
    simp only [need]
    omega
  | binary op left right =>
    have := need_pos left
    simp only [need]
    omega

theorem level_eq {p : Phrase} (h : encloseOperand p = false) : p.level = Operator.levels := by
  cases p with
  | binary => cases h
  | _ => rfl

theorem toNat_mono {a b : Bool} (h : a = true → b = true) : a.toNat ≤ b.toNat := by
  cases a with
  | false => exact Nat.zero_le _
  | true => rw [h rfl]

/-- An operand in parentheses is an operation itself. -/
theorem enclosed_is_operation {p : Phrase} (h : p.level < Operator.levels) :
    encloseOperand p = true := by
  refine Bool.of_not_eq_false fun none => ?_
  rw [level_eq none] at h
  exact Nat.lt_irrefl _ h

theorem encloseLeft_le (op : Operator) (p : Phrase) :
    (encloseLeft op p).toNat ≤ (encloseOperand p).toNat := by
  refine toNat_mono fun h => enclosed_is_operation ?_
  have below := op.level_lt
  simp only [encloseLeft, decide_eq_true_eq] at h
  omega

theorem encloseRight_le (op : Operator) (p : Phrase) :
    (encloseRight op p).toNat ≤ (encloseOperand p).toNat := by
  refine toNat_mono fun h => enclosed_is_operation ?_
  have below := op.level_lt
  simp only [encloseRight, decide_eq_true_eq] at h
  omega

mutual

/-- Parentheses never ask for more levels than the expression is high. -/
theorem need_le_height (p : Phrase) : p.need + (encloseOperand p).toNat ≤ p.expr.height := by
  cases p with
  | integer | float | string | bool | null | name => simp [need, encloseOperand, expr, height]
  | list items =>
    have h := needs_le_heights items
    simp only [need, encloseOperand, expr, height, Bool.toNat_false]
    omega
  | call f arguments =>
    have h := needs_le_heights arguments
    simp only [need, encloseOperand, expr, height, Bool.toNat_false]
    omega
  | member target x arguments =>
    have h := need_le_height target
    have h' := needs_le_heights arguments
    have := Bool.toNat_le (encloseTarget target)
    simp only [need, encloseOperand, expr, height, Bool.toNat_false] at h ⊢
    omega
  | index target n =>
    have h := need_le_height target
    have := Bool.toNat_le (encloseIndexed target)
    simp only [need, encloseOperand, expr, height, Bool.toNat_false] at h ⊢
    omega
  | unary op operand =>
    have h := need_le_height operand
    simp only [need, encloseOperand, expr, height, Bool.toNat_false] at h ⊢
    omega
  | binary op left right =>
    have hl := need_le_height left
    have hr := need_le_height right
    have hleft := encloseLeft_le op left
    have hright := encloseRight_le op right
    have := Bool.toNat_le (encloseOperand (binary op left right))
    simp only [need, expr, height]
    omega

theorem needs_le_heights (ps : List Phrase) : needs ps ≤ heights (exprs ps) := by
  cases ps with
  | nil => simp [needs]
  | cons p rest =>
    have h := need_le_height p
    have h' := needs_le_heights rest
    simp only [needs, exprs, heights]
    omega

end

end Phrase
end Stencil
