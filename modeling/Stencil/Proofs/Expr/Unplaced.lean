import Stencil.Expr.Parser
import Stencil.Proofs.Token.Unplaced

/-! Expressions up to positions. The parser looks at places only to write them down, so what it
makes of tokens without places is what it makes of the tokens, without places. -/
namespace Stencil
open Outcome

namespace Expr

mutual

def unplaced : Expr → Expr
  | literal _ v => literal 0 v
  | name _ x => name 0 x
  | list _ items => list 0 (allUnplaced items)
  | member _ target x arguments => member 0 (unplaced target) x (allUnplaced arguments)
  | index _ target i => index 0 (unplaced target) i
  | call _ f arguments => call 0 f (allUnplaced arguments)
  | unary _ op operand => unary 0 op (unplaced operand)
  | binary _ op left right => binary 0 op (unplaced left) (unplaced right)
  | otherUnary _ op operand => otherUnary 0 op (unplaced operand)
  | otherBinary _ op left right => otherBinary 0 op (unplaced left) (unplaced right)
  | foreign _ kind => foreign 0 kind

def allUnplaced : List Expr → List Expr
  | [] => []
  | e :: rest => unplaced e :: allUnplaced rest

end

mutual

@[simp] theorem height_unplaced (e : Expr) : e.unplaced.height = e.height := by
  cases e with
  | literal | name | foreign => rfl
  | list p items => rw [unplaced, height, height, heights_unplaced items]
  | member p target x arguments =>
    rw [unplaced, height, height, height_unplaced target, heights_unplaced arguments]
  | index p target i => rw [unplaced, height, height, height_unplaced target]
  | call p f arguments => rw [unplaced, height, height, heights_unplaced arguments]
  | unary p op operand => rw [unplaced, height, height, height_unplaced operand]
  | binary p op left right =>
    rw [unplaced, height, height, height_unplaced left, height_unplaced right]
  | otherUnary p op operand => rw [unplaced, height, height, height_unplaced operand]
  | otherBinary p op left right =>
    rw [unplaced, height, height, height_unplaced left,
      height_unplaced right]

@[simp] theorem heights_unplaced (es : List Expr) : heights (allUnplaced es) = heights es := by
  cases es with
  | nil => rfl
  | cons e rest => rw [allUnplaced, heights, heights, height_unplaced e, heights_unplaced rest]

end

mutual

@[simp] theorem unplaced_unplaced (e : Expr) : e.unplaced.unplaced = e.unplaced := by
  cases e with
  | literal | name | foreign => rfl
  | list p items => simp only [unplaced, allUnplaced_allUnplaced items]
  | member p target x arguments =>
    simp only [unplaced, unplaced_unplaced target,
      allUnplaced_allUnplaced arguments]
  | index p target i => simp only [unplaced, unplaced_unplaced target]
  | call p f arguments => simp only [unplaced, allUnplaced_allUnplaced arguments]
  | unary p op operand => simp only [unplaced, unplaced_unplaced operand]
  | binary p op left right => simp only [unplaced, unplaced_unplaced left, unplaced_unplaced right]
  | otherUnary p op operand => simp only [unplaced, unplaced_unplaced operand]
  | otherBinary p op left right =>
    simp only [unplaced, unplaced_unplaced left, unplaced_unplaced right]

@[simp] theorem allUnplaced_allUnplaced (es : List Expr) :
    allUnplaced (allUnplaced es) = allUnplaced es := by
  cases es with
  | nil => rfl
  | cons e rest => simp only [allUnplaced, unplaced_unplaced e, allUnplaced_allUnplaced rest]

end

def Seen {α β : Type} (view : α → β) (r : Except ParseFault (α × List Token)) :
  Except ParseFault (β × List Token) :=
  bimap ParseFault.unplaced (Prod.map view (List.map Token.unplaced)) r

def Follows (read read' : ReadsExpr) : Prop := ∀ tokens, Seen unplaced (read tokens) =
  read' (tokens.map Token.unplaced)

theorem startsWith_map (kind : Token.Kind) (tokens : List Token) :
    startsWith kind (tokens.map Token.unplaced) = startsWith kind tokens := by
  cases tokens <;> rfl

theorem expect_unplaced (stop : Location) (kind : Token.Kind) (tokens : List Token) :
    Seen Token.unplaced (expect stop kind tokens) =
      expect .start kind (tokens.map Token.unplaced) := by
  cases tokens with
  | nil => rfl
  | cons t rest =>
    by_cases hk : t.kind = kind
    · have hk' : t.unplaced.kind = kind := hk
      rw [List.map_cons, expect, expect, if_pos hk, if_pos hk']
      rfl
    · have hk' : t.unplaced.kind ≠ kind := hk
      rw [List.map_cons, expect, expect, if_neg hk, if_neg hk']
      rfl

theorem grow_unplaced (t : Token) (e e' : Expr) (h : e.unplaced = e') :
    bimap ParseFault.unplaced unplaced (grow t e) = grow t.unplaced e' := by
  subst h
  simp only [grow, height_unplaced]
  split <;> rfl

theorem chain_unplaced {level : Nat} {operand operand' : ReadsExpr} (h : Follows operand operand')
    (fuel : Nat)
    (left : Expr) (tokens : List Token) :
    Seen unplaced (chain level operand fuel left tokens) =
      chain level operand' fuel left.unplaced (tokens.map Token.unplaced) := by
  induction fuel generalizing left tokens with
  | zero => rfl
  | succ fuel ih =>
    cases tokens with
    | nil => rfl
    | cons t rest =>
      simp only [chain, List.map_cons, Token.unplaced_kind]
      split
      · split
        · refine bimap_bind (h rest) fun (right, more) => ?_
          refine bimap_bind (grow_unplaced t _ _ rfl) fun node => ?_
          exact ih node more
        · rfl
      · rfl

theorem tier_unplaced (size : Nat) {unary unary' : ReadsExpr} (h : Follows unary unary') (n : Nat) :
    Follows (tier size unary n) (tier size unary' n) := by
  induction n with
  | zero => exact h
  | succ n ih =>
    intro tokens
    exact bimap_bind (ih tokens) fun (left, rest) => chain_unplaced ih size left rest

theorem moreItems_unplaced {stop : Location} {item item' : ReadsExpr} (h : Follows item item')
    (closing : Token.Kind) (fuel : Nat) (tokens : List Token) :
    Seen allUnplaced (moreItems stop item closing fuel tokens) =
      moreItems .start item' closing fuel (tokens.map Token.unplaced) := by
  induction fuel generalizing tokens with
  | zero =>
    refine bimap_bind (expect_unplaced stop closing tokens) fun (_, rest) => ?_
    rfl
  | succ fuel ih =>
    simp only [moreItems, startsWith_map, ← List.map_drop]
    split
    · refine bimap_bind (h _) fun (first, rest) => ?_
      refine bimap_bind (ih rest) fun (others, more) => ?_
      rfl
    · rw [← apply_ite (List.map Token.unplaced)]
      refine bimap_bind (expect_unplaced stop closing _) fun (_, rest) => ?_
      rfl

theorem items_unplaced {stop : Location} {item item' : ReadsExpr} (h : Follows item item')
    (size : Nat) (closing : Token.Kind) (tokens : List Token) :
    Seen allUnplaced (items size stop item closing tokens) =
      items size .start item' closing (tokens.map Token.unplaced) := by
  simp only [items, startsWith_map, ← List.map_drop]
  split
  · rfl
  · refine bimap_bind (h _) fun (first, rest) => ?_
    refine bimap_bind (moreItems_unplaced h closing size rest) fun (others, more) => ?_
    rfl

theorem arguments_unplaced {stop : Location} {item item' : ReadsExpr} (h : Follows item item')
    (size : Nat) (tokens : List Token) :
    Seen (Option.map allUnplaced) (arguments? size stop item tokens) =
      arguments? size .start item' (tokens.map Token.unplaced) := by
  simp only [arguments?, startsWith_map, ← List.map_drop]
  split
  · refine bimap_bind (items_unplaced h size .rightParen _) fun (found, rest) => ?_
    rfl
  · rfl

theorem integerNumeral_unplaced (text : String) :
    bimap ParseFault.unplaced id (integerNumeral text) = integerNumeral text := by
  unfold integerNumeral
  split <;> rfl

theorem floatNumeral_unplaced (text : String) :
    bimap ParseFault.unplaced id (floatNumeral text) = floatNumeral text := by
  unfold floatNumeral
  split <;> rfl

theorem postfixes_unplaced {stop : Location} {item item' : ReadsExpr} (h : Follows item item')
    (size fuel : Nat)
    (node : Expr) (tokens : List Token) :
    Seen unplaced (postfixes size stop item fuel node tokens) =
      postfixes size .start item' fuel node.unplaced (tokens.map Token.unplaced) := by
  induction fuel generalizing node tokens with
  | zero => cases tokens <;> rfl
  | succ fuel ih =>
    cases tokens with
    | nil => rfl
    | cons d rest =>
      by_cases hd : d.kind = .dot
      · have hd' : d.unplaced.kind = .dot := hd
        cases rest with
        | nil =>
          simp only [List.map_cons, List.map_nil, postfixes, if_pos hd, if_pos hd']
          rfl
        | cons t rest =>
          rw [List.map_cons, List.map_cons, postfixes, postfixes, if_pos hd, if_pos hd']
          simp only [Token.unplaced_kind, Token.unplaced_text]
          split
          · refine bimap_bind (integerNumeral_unplaced t.text) fun n => ?_
            refine bimap_bind (grow_unplaced t _ _ rfl) fun node' => ?_
            exact ih node' rest
          · refine bimap_bind (arguments_unplaced h size rest) ?_
            intro given
            obtain ⟨found, more⟩ := given
            refine bimap_bind (grow_unplaced t _ _ ?_) fun node' => ?_
            · cases found <;> rfl
            · exact ih node' more
          · rfl
      · have idle : startsWith .dot (d :: rest) = false := by simpa [startsWith] using hd
        rw [postfixes_idle idle, postfixes_idle ((startsWith_map .dot _).trans idle)]
        rfl

theorem primary_unplaced {stop : Location} {item item' : ReadsExpr} (h : Follows item item')
    (size : Nat) :
    Follows (primary size stop item) (primary size .start item') := by
  intro tokens
  cases tokens with
  | nil => rfl
  | cons t rest =>
    simp only [primary, List.map_cons, Token.unplaced_kind, Token.unplaced_text,
      Token.unplaced_place]
    split
    · refine bimap_bind (integerNumeral_unplaced t.text) fun n => ?_
      simp only [id_eq]
      split <;> rfl
    · refine bimap_bind (floatNumeral_unplaced t.text) fun x => ?_
      rfl
    · rfl
    · rfl
    · rfl
    · rfl
    · refine bimap_bind (arguments_unplaced h size rest) fun (found, more) => ?_
      cases found with
      | some args =>
        refine bimap_bind (grow_unplaced t _ _ rfl) fun node => ?_
        rfl
      | none => rfl
    · refine bimap_bind (h rest) fun (inner, more) => ?_
      refine bimap_bind (expect_unplaced stop .rightParen more) fun (_, more') => ?_
      rfl
    · refine bimap_bind (items_unplaced h size .rightBracket rest) fun (found, more) => ?_
      refine bimap_bind (grow_unplaced t _ _ rfl) fun node => ?_
      rfl
    · rfl

theorem unaryOf_unplaced (size : Nat) (stop : Location) (depth : Nat) :
    Follows (unaryOf size stop depth) (unaryOf size .start depth) := by
  induction depth with
  | zero =>
    intro tokens
    cases tokens <;> rfl
  | succ depth ih =>
    intro tokens
    cases tokens with
    | nil => rfl
    | cons t rest =>
      simp only [unaryOf, List.map_cons, Token.unplaced_kind]
      split
      · refine bimap_bind (ih rest) fun (operand, more) => ?_
        refine bimap_bind (grow_unplaced t _ _ rfl) fun node => ?_
        rfl
      · have item := tier_unplaced size ih Operator.levels
        refine bimap_bind (primary_unplaced item size (t :: rest)) fun (node, more) => ?_
        exact postfixes_unplaced item size size node more

theorem read_unplaced (stop : Location) (tokens : List Token) :
    Seen unplaced (read stop tokens) = read .start (tokens.map Token.unplaced) := by
  simp only [read, List.length_map]
  exact tier_unplaced _ (unaryOf_unplaced _ stop _) _ tokens

theorem finish_unplaced (tokens : List Token) :
    bimap ParseFault.unplaced id (finish tokens) = finish (tokens.map Token.unplaced) := by
  cases tokens <;> rfl

/-- Up to positions, an expression depends on what its tokens say and not on where they stand. -/
theorem ofTokens_unplaced (stop : Location) (tokens : List Token) :
    bimap ParseFault.unplaced unplaced (ofTokens stop tokens) =
      ofTokens .start (tokens.map Token.unplaced) := by
  refine bimap_bind (read_unplaced stop tokens) fun (e, rest) => ?_
  refine bimap_bind (finish_unplaced rest) fun _ => ?_
  rfl

end Expr
end Stencil
