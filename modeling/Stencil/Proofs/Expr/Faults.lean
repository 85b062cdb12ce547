import Stencil.Proofs.Expr.Order
import Stencil.Proofs.Token.Unplaced

/-! How reading goes wrong. A fault has a place in the template, unless it is that of a number
literal that stands for no number. -/
namespace Stencil
open Outcome

inductive Token.Misread (t : Token) : NumeralFault → Prop where
  | integer {fault : NumeralFault} :
      t.kind = .integer → Numeral.integer t.text = .error fault → Misread t fault
  | float {fault : NumeralFault} : t.kind = .float → Numeral.float t.text = .error fault →
      Misread t fault

theorem Token.Misread.unplaced {t : Token} {fault : NumeralFault} (h : t.Misread fault) :
    t.unplaced.Misread fault := by
  cases h with
  | integer hk found => exact .integer hk found
  | float hk found => exact .float hk found

namespace ParseFault

structure Ground where
  tokens : Token → Prop
  places : Location → Prop
  place {t : Token} : tokens t → places t.place

/-- The fault has one of the places, or is that of a literal among the tokens. -/
inductive Blames (G : Ground) : ParseFault → Prop where
  | placed (reason : Reason) (place : Location) : G.places place → Blames G (.at reason place)
  | numeral {t : Token} {fault : NumeralFault} : G.tokens t → t.Misread fault →
      Blames G (.numeral fault)

end ParseFault

namespace Expr
open ParseFault (Ground Blames)

variable {G : Ground} {β : Type} {stop : Location} {item operand unary : ReadsExpr} {t : Token}
  {tokens : List Token}

def Stays (G : Ground) (x : Except ParseFault (β × List Token)) : Prop :=
  Meets (fun found => ∀ t ∈ found.2, G.tokens t) (Blames G) x

def Keeps (G : Ground) (read : List Token → Except ParseFault (β × List Token)) : Prop :=
  ∀ tokens, (∀ t ∈ tokens, G.tokens t) → Stays G (read tokens)

theorem expect_keeps (hstop : G.places stop) (kind : Token.Kind) : Keeps G (expect stop kind) := by
  intro tokens h
  unfold expect
  split
  · exact .placed _ _ hstop
  · obtain ⟨own, behind⟩ := List.forall_mem_cons.1 h
    split
    · exact behind
    · exact .placed _ _ (G.place own)

theorem grow_blames (own : G.tokens t) (e : Expr) :
    Meets (fun _ => True) (Blames G) (grow t e) := by
  unfold grow
  split
  · trivial
  · exact .placed _ _ (G.place own)

theorem integerNumeral_blames (hk : t.kind = .integer) (own : G.tokens t) :
    Meets (fun _ => True) (Blames G) (integerNumeral t.text) := by
  unfold integerNumeral
  split
  · trivial
  · rename_i fault found
    exact .numeral own (.integer hk found)

theorem floatNumeral_blames (hk : t.kind = .float) (own : G.tokens t) :
    Meets (fun _ => True) (Blames G) (floatNumeral t.text) := by
  unfold floatNumeral
  split
  · trivial
  · rename_i fault found
    exact .numeral own (.float hk found)

theorem chain_keeps {level : Nat} (h : Keeps G operand) (fuel : Nat) (left : Expr) :
    Keeps G (chain level operand fuel left) := by
  intro tokens ht
  fun_induction chain level operand fuel left tokens with
  | case1 | case2 | case4 | case5 => exact ht
  | case3 fuel left t tail op hop hlevel ih =>
    obtain ⟨own, behind⟩ := List.forall_mem_cons.1 ht
    refine (h tail behind).bind fun found hmore => ?_
    exact (grow_blames own _).bind fun node _ => ih _ _ hmore

theorem tier_keeps (size : Nat) (h : Keeps G unary) (n : Nat) : Keeps G (tier size unary n) := by
  induction n with
  | zero => exact h
  | succ n ih =>
    intro tokens ht
    exact (ih tokens ht).bind fun (left, more) hmore => chain_keeps ih _ _ _ hmore

theorem drop_stays (h : ∀ t ∈ tokens, G.tokens t) (n : Nat) : ∀ t ∈ tokens.drop n, G.tokens t :=
  fun t ht => h t (List.mem_of_mem_drop ht)

theorem moreItems_keeps (hstop : G.places stop) (h : Keeps G item) (closing : Token.Kind)
    (fuel : Nat) :
    Keeps G (moreItems stop item closing fuel) := by
  induction fuel with
  | zero =>
    intro tokens ht
    exact (expect_keeps hstop closing tokens ht).bind fun _ hmore => hmore
  | succ fuel ih =>
    intro tokens ht
    unfold moreItems
    split
    · refine (h _ (drop_stays ht 1)).bind fun first hmore => ?_
      exact (ih _ hmore).bind fun others hmore' => hmore'
    · have left : ∀ t ∈ (if startsWith .comma tokens then tokens.drop 1 else tokens),
          G.tokens t := by
        split
        · exact drop_stays ht 1
        · exact ht
      exact (expect_keeps hstop closing _ left).bind fun _ hmore => hmore

theorem items_keeps (size : Nat) (hstop : G.places stop) (h : Keeps G item) (closing : Token.Kind) :
    Keeps G (items size stop item closing) := by
  intro tokens ht
  unfold items
  split
  · exact drop_stays ht 1
  · refine (h tokens ht).bind fun (first, more) hmore => ?_
    exact (moreItems_keeps hstop h closing size more hmore).bind
      fun (others, more') hmore' => hmore'

theorem arguments_keeps (size : Nat) (hstop : G.places stop) (h : Keeps G item) :
    Keeps G (arguments? size stop item) := by
  intro tokens ht
  unfold arguments?
  split
  · exact (items_keeps size hstop h .rightParen _ (drop_stays ht 1)).bind
      fun (found, more) hmore => hmore
  · exact ht

theorem postfixes_keeps (size : Nat) (hstop : G.places stop) (h : Keeps G item) (fuel : Nat)
    (node : Expr) : Keeps G (postfixes size stop item fuel node) := by
  intro tokens ht
  fun_induction postfixes size stop item fuel node tokens with
  | case1 => exact .placed _ _ hstop
  | case2 fuel node d hd t tail hk ih =>
    simp only [List.forall_mem_cons] at ht
    obtain ⟨-, own, behind⟩ := ht
    refine (integerNumeral_blames hk own).bind fun n _ => ?_
    exact (grow_blames own _).bind fun node' _ => ih _ behind
  | case3 fuel node d hd t tail hk ih =>
    simp only [List.forall_mem_cons] at ht
    obtain ⟨-, own, behind⟩ := ht
    refine (arguments_keeps size hstop h tail behind).bind fun found hmore => ?_
    exact (grow_blames own _).bind fun node' _ => ih _ _ hmore
  | case4 =>
    simp only [List.forall_mem_cons] at ht
    exact .placed _ _ (G.place ht.2.1)
  | case5 => exact ht
  | case6 => exact ht

theorem primary_keeps (size : Nat) (hstop : G.places stop) (h : Keeps G item) :
    Keeps G (primary size stop item) := by
  intro tokens ht
  unfold primary
  split
  · exact .placed _ _ hstop
  · rename_i t rest
    obtain ⟨own, behind⟩ := List.forall_mem_cons.1 ht
    dsimp only
    split
    · rename_i hk
      refine (integerNumeral_blames hk own).bind fun n _ => ?_
      split
      · exact behind
      · exact .placed _ _ (G.place own)
    · rename_i hk
      exact (floatNumeral_blames hk own).bind fun x _ => behind
    · exact behind
    · exact behind
    · exact behind
    · exact behind
    · refine (arguments_keeps size hstop h rest behind).bind fun (found, more) hmore => ?_
      split
      · exact (grow_blames own _).bind fun node _ => hmore
      · exact hmore
    · refine (h rest behind).bind fun (inner, more) hmore => ?_
      exact (expect_keeps hstop .rightParen more hmore).bind fun (_, more') hmore' => hmore'
    · refine (items_keeps size hstop h .rightBracket rest behind).bind fun (found, more) hmore => ?_
      exact (grow_blames own _).bind fun node _ => hmore
    · exact .placed _ _ (G.place own)

theorem placeOf_ground (hstop : G.places stop) (h : ∀ t ∈ tokens, G.tokens t) :
    G.places (placeOf stop tokens) := by
  cases tokens with
  | nil => exact hstop
  | cons t rest => exact G.place (h t List.mem_cons_self)

theorem unaryOf_keeps (size : Nat) (hstop : G.places stop) (depth : Nat) :
    Keeps G (unaryOf size stop depth) := by
  induction depth with
  | zero => exact fun tokens ht => .placed _ _ (placeOf_ground hstop ht)
  | succ depth ih =>
    intro tokens ht
    have item := tier_keeps size ih Operator.levels
    unfold unaryOf
    dsimp only
    split
    · exact .placed _ _ hstop
    · rename_i t rest
      obtain ⟨own, behind⟩ := List.forall_mem_cons.1 ht
      split
      · refine (ih rest behind).bind fun operand hmore => ?_
        exact (grow_blames own _).bind fun node _ => hmore
      · refine (primary_keeps size hstop item _ ht).bind fun node hmore => ?_
        exact postfixes_keeps size hstop item _ _ _ hmore

theorem read_keeps (hstop : G.places stop) : Keeps G (read stop) :=
  fun tokens ht => tier_keeps _ (unaryOf_keeps _ hstop _) _ tokens ht

theorem finish_blames (h : ∀ t ∈ tokens, G.tokens t) :
    Meets (fun _ => True) (Blames G) (finish tokens) := by
  unfold finish
  split
  · trivial
  · exact .placed _ _ (G.place (h _ List.mem_cons_self))

theorem ofTokens_blames (hstop : G.places stop) (h : ∀ t ∈ tokens, G.tokens t) :
    Meets (fun _ => True) (Blames G) (ofTokens stop tokens) := by
  refine (read_keeps hstop tokens h).bind fun (e, rest) left => ?_
  exact (finish_blames left).bind fun _ _ => trivial

theorem tier_error {size : Nat} {unary : ReadsExpr} {tokens : List Token} {fault : ParseFault}
    (h : unary tokens = .error fault) (n : Nat) : tier size unary n tokens = .error fault := by
  induction n with
  | zero => exact h
  | succ n ih => rw [tier, ih, error_bind]

/-- A literal that stands for no number is not got past. -/
theorem ofTokens_misread {t : Token} {fault : NumeralFault} (h : t.Misread fault) (stop : Location)
    (rest : List Token) : ofTokens stop (t :: rest) = .error (.numeral fault) := by
  have first (size depth : Nat) : unaryOf size stop (depth + 1) (t :: rest) =
      .error (.numeral fault) := by
    cases h with
    | integer hk found => simp [unaryOf, unaryOperator?, primary, integerNumeral, hk, found]
    | float hk found => simp [unaryOf, unaryOperator?, primary, floatNumeral, hk, found]
  have top (size : Nat) : unaryOf size stop depthLimit (t :: rest) = .error (.numeral fault) :=
    first size 63
  rw [ofTokens, read, tier_error (top _), error_bind]

end Expr
end Stencil
