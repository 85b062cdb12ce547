import Mathlib.Data.List.Forall2
import Stencil.Expr.Parser
import Stencil.Proofs.Outcome

/-! What the parser makes: all that is said of expressions out of a template is said of the tokens
they were made of. The nodes come in the order of these tokens, brackets, commas and dots left
aside; each stands where its token stands, and if it holds others it was measured. -/
namespace Stencil

namespace Expr

mutual

def inOrder : Expr → List Expr
  | literal p v => [literal p v]
  | name p x => [name p x]
  | list p items => list p items :: allInOrder items
  | member p target x arguments =>
    inOrder target ++ member p target x arguments :: allInOrder arguments
  | index p target i => inOrder target ++ [index p target i]
  | call p f arguments => call p f arguments :: allInOrder arguments
  | unary p op operand => unary p op operand :: inOrder operand
  | binary p op left right => inOrder left ++ binary p op left right :: inOrder right
  | otherUnary p op operand => otherUnary p op operand :: inOrder operand
  | otherBinary p op left right => inOrder left ++ otherBinary p op left right :: inOrder right
  | foreign p kind => [foreign p kind]

def allInOrder : List Expr → List Expr
  | [] => []
  | e :: rest => inOrder e ++ allInOrder rest

end

end Expr

namespace Token
open Stencil.Expr (integerNumeral floatNumeral unaryOperator? depthLimit)

/-- What only tells how an expression is put together. A left bracket is not among them: it opens a
list. -/
def Kind.isSilent : Kind → Bool
  | .dot | .comma | .leftParen | .rightParen | .rightBracket => true
  | _ => false

/-- The node was made of this token: it says what the token says and stands where it stands, and it
is not higher than it may be. -/
inductive Heads (t : Token) : Expr → Prop where
  | integer {n : Int} : t.kind = .integer → integerNumeral t.text = .ok n → Integer.fits n →
      Heads t (.literal t.place.offset (.int n))
  | float {x : Float} : t.kind = .float → floatNumeral t.text = .ok x →
      Heads t (.literal t.place.offset (.float x))
  | string : t.kind = .string → Heads t (.literal t.place.offset (.string t.text))
  | true : t.kind = .keyword .true → Heads t (.literal t.place.offset (.bool true))
  | false : t.kind = .keyword .false → Heads t (.literal t.place.offset (.bool false))
  | nil : t.kind = .keyword .nil → Heads t (.literal t.place.offset .null)
  | name : t.kind = .identifier → Heads t (.name t.place.offset t.text)
  | list {items : List Expr} :
      t.kind = .leftBracket → (Expr.list t.place.offset items).height ≤ depthLimit →
      Heads t (.list t.place.offset items)
  | member {target : Expr} {arguments : List Expr} : t.kind = .identifier →
      (Expr.member t.place.offset target t.text arguments).height ≤ depthLimit →
      Heads t (.member t.place.offset target t.text arguments)
  | index {target : Expr} {n : Int} : t.kind = .integer → integerNumeral t.text = .ok n →
      (Expr.index t.place.offset target n).height ≤ depthLimit →
      Heads t (.index t.place.offset target n)
  | call {arguments : List Expr} : t.kind = .identifier →
      (Expr.call t.place.offset t.text arguments).height ≤ depthLimit →
      Heads t (.call t.place.offset t.text arguments)
  | unary {op : UnaryOperator} {operand : Expr} : unaryOperator? t.kind = some op →
      (Expr.unary t.place.offset op operand).height ≤ depthLimit →
      Heads t (.unary t.place.offset op operand)
  | binary {op : Operator} {left right : Expr} : t.kind = .operator op →
      (Expr.binary t.place.offset op left right).height ≤ depthLimit →
      Heads t (.binary t.place.offset op left right)

/-- The kind of a token that a node was made of is never a silent one. -/
theorem Heads.isSilent {t : Token} {e : Expr} (h : t.Heads e) : t.kind.isSilent = Bool.false := by
  cases h with
  | unary found =>
    unfold unaryOperator? at found
    split at found
    all_goals simp_all [Kind.isSilent]
  | _ => simp [*, Kind.isSilent]

/-- The nodes were made of these tokens, in this order. -/
def Cover (tokens : List Token) (nodes : List Expr) : Prop :=
  List.Forall₂ Heads (tokens.filter fun t => !t.kind.isSilent) nodes

variable {t : Token} {tokens tokens' : List Token} {e : Expr} {nodes nodes' : List Expr}

theorem Cover.append (h : Cover tokens nodes) (h' : Cover tokens' nodes') :
    Cover (tokens ++ tokens') (nodes ++ nodes') := by
  rw [Cover, List.filter_append]
  exact List.rel_append h h'

theorem Cover.cons (h : t.Heads e) (h' : Cover tokens nodes) :
    Cover (t :: tokens) (e :: nodes) := by
  rw [Cover, List.filter_cons_of_pos (by simp [h.isSilent])]
  exact .cons h h'

theorem cover_cons_silent (h : t.kind.isSilent = true) : Cover (t :: tokens) nodes ↔
    Cover tokens nodes := by
  rw [Cover, Cover, List.filter_cons_of_neg (by simp [h])]

theorem cover_nil : Cover [] [] := .nil

theorem exists_of_heads (h : List.Forall₂ Heads tokens nodes) (inside : e ∈ nodes) :
    ∃ t ∈ tokens, t.Heads e := by
  induction h with
  | nil => cases inside
  | @cons t e' tokens nodes head _ ih =>
    rcases List.mem_cons.1 inside with rfl | later
    · exact ⟨t, List.mem_cons_self, head⟩
    · obtain ⟨t', ht', head'⟩ := ih later
      exact ⟨t', List.mem_cons_of_mem t ht', head'⟩

theorem Cover.exists_of_mem (h : Cover tokens nodes) (inside : e ∈ nodes) :
    ∃ t ∈ tokens, t.Heads e := by
  obtain ⟨t, ht, head⟩ := exists_of_heads h inside
  exact ⟨t, List.mem_of_mem_filter ht, head⟩

end Token

namespace Expr
open Token (Cover Heads cover_nil cover_cons_silent)
variable {size fuel : Nat} {stop : Location} {item operand unary : ReadsExpr} {closing : Token.Kind}
  {tokens rest : List Token} {e : Expr} {es : List Expr}

def Consumes (read : ReadsExpr) : Prop :=
  ∀ tokens e rest, read tokens = .ok (e, rest) →
    ∃ used, tokens = used ++ rest ∧ Cover used e.inOrder

theorem grow_eq_ok_iff {t : Token} {e e' : Expr} : grow t e = .ok e' ↔
    e.height ≤ depthLimit ∧ e = e' := by
  unfold grow
  split <;> simp [*]

theorem expect_eq_ok_iff {kind : Token.Kind} {t : Token} :
    expect stop kind tokens = .ok (t, rest) ↔ t.kind = kind ∧ tokens = t :: rest := by
  cases tokens with
  | nil => simp [expect]
  | cons u tail =>
    by_cases own : u.kind = kind
    · simp only [expect, if_pos own, Except.ok.injEq, Prod.mk.injEq, List.cons.injEq]
      constructor
      · intro same
        obtain ⟨rfl, rfl⟩ := same
        exact ⟨own, rfl, rfl⟩
      · exact And.right
    · simp only [expect, if_neg own, List.cons.injEq]
      constructor
      · intro failed
        cases failed
      · intro same
        obtain ⟨found, rfl, -⟩ := same
        exact absurd found own

theorem startsWith_iff {kind : Token.Kind} :
    startsWith kind tokens = true ↔ ∃ t, t.kind = kind ∧ tokens = t :: tokens.drop 1 := by
  cases tokens <;> simp [startsWith]

/-- The operators of a level and their operands are made of what stands behind the left operand. -/
theorem chain_consumes {level : Nat} (h : Consumes operand) {before : List Token} {left : Expr}
    (covered : Cover before left.inOrder)
    (hc : chain level operand fuel left tokens = .ok (e, rest)) :
    ∃ used, tokens = used ++ rest ∧ Cover (before ++ used) e.inOrder := by
  -- `before` is what the left operand was made of; each step adds an operator and an operand to it
  fun_induction chain level operand fuel left tokens generalizing before with
  | case1 | case2 | case4 | case5 =>
    cases hc
    exact ⟨[], rfl, by rwa [List.append_nil]⟩
  | case3 fuel left t tail op hop hlevel ih =>
    simp only [Outcome.bind_eq_ok_iff, grow_eq_ok_iff, Prod.exists] at hc
    obtain ⟨right, more, hr, node, ⟨measured, rfl⟩, hc⟩ := hc
    obtain ⟨used, rfl, operand⟩ := h _ _ _ hr
    have node : Cover (before ++ t :: used) (inOrder (.binary t.place.offset op left right)) :=
      covered.append (.cons (.binary hop measured) operand)
    obtain ⟨used', rfl, whole⟩ := ih _ _ node hc
    exact ⟨t :: used ++ used', by simp, by rwa [← List.append_assoc]⟩

theorem tier_consumes (size : Nat) (h : Consumes unary) (n : Nat) :
    Consumes (tier size unary n) := by
  induction n with
  | zero => exact h
  | succ n ih =>
    intro tokens e rest hr
    simp only [tier, Outcome.bind_eq_ok_iff, Prod.exists] at hr
    obtain ⟨left, more, hl, hc⟩ := hr
    obtain ⟨used, rfl, first⟩ := ih _ _ _ hl
    obtain ⟨used', rfl, whole⟩ := chain_consumes ih first hc
    exact ⟨used ++ used', (List.append_assoc ..).symm, whole⟩

theorem moreItems_consumes (h : Consumes item) (silent : closing.isSilent = true)
    (hr : moreItems stop item closing fuel tokens = .ok (es, rest)) :
    ∃ used, tokens = used ++ rest ∧ Cover used (allInOrder es) := by
  induction fuel generalizing tokens es with
  | zero =>
    simp only [moreItems, Outcome.bind_eq_ok_iff, Outcome.pure_eq_ok, Except.ok.injEq,
      Prod.mk.injEq, Prod.exists, expect_eq_ok_iff] at hr
    obtain ⟨t, _, ⟨rfl, rfl⟩, rfl, rfl⟩ := hr
    exact ⟨[t], rfl, (cover_cons_silent silent).2 cover_nil⟩
  | succ fuel ih =>
    simp only [moreItems] at hr
    split at hr
    · rename_i comma
      rw [Bool.and_eq_true, startsWith_iff] at comma
      obtain ⟨⟨t, hk, heq⟩, -⟩ := comma
      simp only [Outcome.bind_eq_ok_iff, Outcome.pure_eq_ok, Except.ok.injEq, Prod.mk.injEq,
        Prod.exists] at hr
      obtain ⟨first, more, hf, others, _, ho, rfl, rfl⟩ := hr
      obtain ⟨used, used_eq, own⟩ := h _ _ _ hf
      obtain ⟨used', rfl, later⟩ := ih ho
      refine ⟨t :: (used ++ used'), ?_, (cover_cons_silent (by rw [hk]; rfl)).2 (own.append later)⟩
      rw [heq, used_eq, List.cons_append, List.append_assoc]
    · simp only [Outcome.bind_eq_ok_iff, Outcome.pure_eq_ok, Except.ok.injEq, Prod.mk.injEq,
        Prod.exists, expect_eq_ok_iff] at hr
      obtain ⟨t, _, ⟨rfl, closed⟩, rfl, rfl⟩ := hr
      split at closed
      · -- a comma in front of the closing bracket
        rename_i comma
        obtain ⟨c, hk, heq⟩ := startsWith_iff.1 comma
        refine ⟨[c, t], by rw [heq, closed]; rfl, ?_⟩
        exact (cover_cons_silent (by rw [hk]; rfl)).2 ((cover_cons_silent silent).2 cover_nil)
      · exact ⟨[t], closed, (cover_cons_silent silent).2 cover_nil⟩

theorem items_consumes (h : Consumes item) (silent : closing.isSilent = true)
    (hr : items size stop item closing tokens = .ok (es, rest)) :
    ∃ used, tokens = used ++ rest ∧ Cover used (allInOrder es) := by
  unfold items at hr
  split at hr
  · rename_i closed
    obtain ⟨t, rfl, heq⟩ := startsWith_iff.1 closed
    cases hr
    exact ⟨[t], heq, (cover_cons_silent silent).2 cover_nil⟩
  · simp only [Outcome.bind_eq_ok_iff, Outcome.pure_eq_ok, Except.ok.injEq, Prod.mk.injEq,
      Prod.exists] at hr
    obtain ⟨first, more, hf, others, _, ho, rfl, rfl⟩ := hr
    obtain ⟨used, rfl, own⟩ := h _ _ _ hf
    obtain ⟨used', rfl, later⟩ := moreItems_consumes h silent ho
    exact ⟨used ++ used', (List.append_assoc ..).symm, own.append later⟩

theorem arguments_consumes (h : Consumes item) {found : Option (List Expr)}
    (hr : arguments? size stop item tokens = .ok (found, rest)) :
    ∃ used, tokens = used ++ rest ∧ Cover used (allInOrder (found.getD [])) := by
  unfold arguments? at hr
  split at hr
  · rename_i opened
    obtain ⟨t, hk, heq⟩ := startsWith_iff.1 opened
    simp only [Outcome.bind_eq_ok_iff, Outcome.pure_eq_ok, Except.ok.injEq, Prod.mk.injEq,
      Prod.exists] at hr
    obtain ⟨es, _, hi, rfl, rfl⟩ := hr
    obtain ⟨used, used_eq, inside⟩ := items_consumes h rfl hi
    refine ⟨t :: used, ?_, (cover_cons_silent (by rw [hk]; rfl)).2 inside⟩
    rw [heq, used_eq, List.cons_append]
  · cases hr
    exact ⟨[], rfl, cover_nil⟩

/-- Members and indexes are made of what stands behind their target. -/
theorem postfixes_consumes (h : Consumes item) {before : List Token} {node : Expr}
    (covered : Cover before node.inOrder)
    (hr : postfixes size stop item fuel node tokens = .ok (e, rest)) :
    ∃ used, tokens = used ++ rest ∧ Cover (before ++ used) e.inOrder := by
  fun_induction postfixes size stop item fuel node tokens generalizing before with
  | case1 | case4 => cases hr
  | case2 fuel node d hd t tail hk ih =>
    simp only [Outcome.bind_eq_ok_iff, grow_eq_ok_iff] at hr
    obtain ⟨i, hi, node', ⟨measured, rfl⟩, hr⟩ := hr
    have indexed : Cover (before ++ [d, t]) (inOrder (.index t.place.offset node i)) :=
      covered.append
        ((cover_cons_silent (by rw [hd]; rfl)).2 (.cons (.index hk hi measured) cover_nil))
    obtain ⟨used, rfl, whole⟩ := ih _ indexed hr
    exact ⟨d :: t :: used, rfl, by simpa using whole⟩
  | case3 fuel node d hd t tail hk ih =>
    simp only [Outcome.bind_eq_ok_iff, grow_eq_ok_iff, Prod.exists] at hr
    obtain ⟨found, more, ha, node', ⟨measured, rfl⟩, hr⟩ := hr
    obtain ⟨used, rfl, inside⟩ := arguments_consumes h ha
    have named : Cover (before ++ d :: t :: used)
        (inOrder (.member t.place.offset node t.text (found.getD []))) :=
      covered.append ((cover_cons_silent (by rw [hd]; rfl)).2 (.cons (.member hk measured) inside))
    obtain ⟨used', rfl, whole⟩ := ih _ _ named hr
    exact ⟨d :: t :: used ++ used', by simp, by simpa using whole⟩
  | case5 | case6 =>
    cases hr
    exact ⟨[], rfl, by rwa [List.append_nil]⟩

theorem primary_consumes (h : Consumes item) : Consumes (primary size stop item) := by
  intro tokens e rest hr
  unfold primary at hr
  split at hr
  · cases hr
  · rename_i t tail
    simp only at hr
    split at hr
    · rename_i hk
      simp only [Outcome.bind_eq_ok_iff] at hr
      obtain ⟨n, hn, hr⟩ := hr
      split at hr
      · rename_i fits
        cases hr
        exact ⟨[t], rfl, .cons (.integer hk hn fits) cover_nil⟩
      · cases hr
    · rename_i hk
      simp only [Outcome.bind_eq_ok_iff, Outcome.pure_eq_ok] at hr
      obtain ⟨x, hx, hr⟩ := hr
      cases hr
      exact ⟨[t], rfl, .cons (.float hk hx) cover_nil⟩
    · rename_i hk
      cases hr
      exact ⟨[t], rfl, .cons (.string hk) cover_nil⟩
    · rename_i hk
      cases hr
      exact ⟨[t], rfl, .cons (.true hk) cover_nil⟩
    · rename_i hk
      cases hr
      exact ⟨[t], rfl, .cons (.false hk) cover_nil⟩
    · rename_i hk
      cases hr
      exact ⟨[t], rfl, .cons (.nil hk) cover_nil⟩
    · rename_i hk
      simp only [Outcome.bind_eq_ok_iff, Prod.exists] at hr
      obtain ⟨found, more, ha, hr⟩ := hr
      obtain ⟨used, rfl, inside⟩ := arguments_consumes h ha
      split at hr
      · simp only [Outcome.bind_eq_ok_iff, grow_eq_ok_iff, Outcome.pure_eq_ok] at hr
        obtain ⟨node, ⟨measured, rfl⟩, hr⟩ := hr
        cases hr
        exact ⟨t :: used, rfl, .cons (.call hk measured) inside⟩
      · cases hr
        exact ⟨t :: used, rfl, .cons (.name hk) inside⟩
    · rename_i hk
      simp only [Outcome.bind_eq_ok_iff, Outcome.pure_eq_ok, Prod.exists, expect_eq_ok_iff] at hr
      obtain ⟨inner, _, hi, closer, more, ⟨closed, rfl⟩, hr⟩ := hr
      cases hr
      obtain ⟨used, rfl, inside⟩ := h _ _ _ hi
      refine ⟨t :: (used ++ [closer]), by simp, (cover_cons_silent (by rw [hk]; rfl)).2 ?_⟩
      have ending : Cover [closer] [] := (cover_cons_silent (by rw [closed]; rfl)).2 cover_nil
      simpa using inside.append ending
    · rename_i hk
      simp only [Outcome.bind_eq_ok_iff, grow_eq_ok_iff, Outcome.pure_eq_ok, Prod.exists] at hr
      obtain ⟨found, more, hi, node, ⟨measured, rfl⟩, hr⟩ := hr
      cases hr
      obtain ⟨used, rfl, inside⟩ := items_consumes h rfl hi
      exact ⟨t :: used, rfl, .cons (.list hk measured) inside⟩
    · cases hr

theorem unaryOf_consumes (size : Nat) (stop : Location) (depth : Nat) :
    Consumes (unaryOf size stop depth) := by
  induction depth with
  | zero =>
    intro tokens e rest hr
    cases hr
  | succ depth ih =>
    intro tokens e rest hr
    unfold unaryOf at hr
    simp only at hr
    split at hr
    · cases hr
    · rename_i t tail
      split at hr
      · rename_i op hop
        simp only [Outcome.bind_eq_ok_iff, grow_eq_ok_iff, Outcome.pure_eq_ok, Prod.exists] at hr
        obtain ⟨operand, more, ho, node, ⟨measured, rfl⟩, hr⟩ := hr
        cases hr
        obtain ⟨used, rfl, inside⟩ := ih _ _ _ ho
        exact ⟨t :: used, rfl, .cons (.unary hop measured) inside⟩
      · simp only [Outcome.bind_eq_ok_iff, Prod.exists] at hr
        obtain ⟨node, more, hp, hr⟩ := hr
        have item := tier_consumes size ih Operator.levels
        obtain ⟨used, used_eq, first⟩ := primary_consumes item _ _ _ hp
        obtain ⟨used', rfl, whole⟩ := postfixes_consumes item first hr
        exact ⟨used ++ used', by rw [used_eq, List.append_assoc], whole⟩

theorem read_consumes (stop : Location) : Consumes (read stop) := by
  intro tokens e rest hr
  exact tier_consumes _ (unaryOf_consumes _ _ _) _ _ _ _ hr

theorem ofTokens_eq_ok_iff : ofTokens stop tokens = .ok e ↔ read stop tokens = .ok (e, []) := by
  simp only [ofTokens, Outcome.bind_eq_ok_iff, Outcome.pure_eq_ok, Except.ok.injEq, Prod.exists]
  constructor
  · intro h
    obtain ⟨_, rest, hr, _, hf, rfl⟩ := h
    cases rest with
    | nil => exact hr
    | cons t rest => cases hf
  · intro hr
    exact ⟨e, [], hr, (), rfl, rfl⟩

/-- Every token of a whole expression that is not silent makes one node, in the order of the
source. -/
theorem cover_of_ofTokens (h : ofTokens stop tokens = .ok e) : Cover tokens e.inOrder := by
  obtain ⟨used, heq, whole⟩ := read_consumes stop _ _ _ (ofTokens_eq_ok_iff.1 h)
  rw [List.append_nil] at heq
  rwa [heq]

end Expr
end Stencil
