import Stencil.Proofs.Expr.Order

/-! Expressions as they come out of a template: literals of few kinds, and every expression that was
put together was measured, so none is higher than the limit. -/
namespace Stencil.Expr

inductive Literal : Value → Prop where
  | null : Literal .null
  | bool (b : Bool) : Literal (.bool b)
  | int (n : Nat) : Integer.fits n → Literal (.int n)
  | float (x : Float) : Literal (.float x)
  | string (s : String) : Literal (.string s)

inductive Parsed : Expr → Prop where
  | literal (p : Nat) {v : Value} : Literal v → Parsed (.literal p v)
  | name (p : Nat) (x : String) : Parsed (.name p x)
  | list (p : Nat) {items : List Expr} : (∀ e ∈ items, Parsed e) →
      (Expr.list p items).height ≤ depthLimit → Parsed (.list p items)
  | member (p : Nat) {target : Expr} (x : String) {arguments : List Expr} : Parsed target →
      (∀ e ∈ arguments, Parsed e) → (Expr.member p target x arguments).height ≤ depthLimit →
      Parsed (.member p target x arguments)
  | index (p : Nat) {target : Expr} (i : Nat) : Parsed target →
      (Expr.index p target i).height ≤ depthLimit → Parsed (.index p target i)
  | call (p : Nat) (f : String) {arguments : List Expr} : (∀ e ∈ arguments, Parsed e) →
      (Expr.call p f arguments).height ≤ depthLimit → Parsed (.call p f arguments)
  | unary (p : Nat) (op : UnaryOperator) {operand : Expr} : Parsed operand →
      (Expr.unary p op operand).height ≤ depthLimit → Parsed (.unary p op operand)
  | binary (p : Nat) (op : Operator) {left right : Expr} : Parsed left → Parsed right →
      (Expr.binary p op left right).height ≤ depthLimit → Parsed (.binary p op left right)

theorem Parsed.height_le {e : Expr} (h : Parsed e) : e.height ≤ depthLimit := by
  cases h with
  | literal | name => simp [height, depthLimit]
  | list | member | index | call | unary | binary => assumption

theorem integerNumeral_nat {text : String} {n : Int} (h : integerNumeral text = .ok n) :
    ∃ m : Nat, n = m := by
  unfold integerNumeral at h
  split at h
  · rename_i m _
    exact ⟨m, by cases h; rfl⟩
  · cases h

mutual

/-- Where each node was made of a token, the whole was measured. -/
theorem parsed_of_heads (e : Expr) (h : ∀ part ∈ e.inOrder, ∃ t : Token, t.Heads part) :
    e.Parsed := by
  cases e with
  | literal p v =>
    obtain ⟨t, head⟩ := h _ List.mem_cons_self
    cases head with
    | integer _ hn fits =>
      obtain ⟨m, rfl⟩ := integerNumeral_nat hn
      exact .literal _ (.int m fits)
    | float => exact .literal _ (.float _)
    | string => exact .literal _ (.string _)
    | true => exact .literal _ (.bool true)
    | false => exact .literal _ (.bool false)
    | nil => exact .literal _ .null
  | name p x => exact .name p x
  | list p items =>
    obtain ⟨⟨t, head⟩, inside⟩ := List.forall_mem_cons.1 h
    cases head with
    | list _ measured => exact .list _ (allParsed_of_heads items inside) measured
  | member p target x arguments =>
    obtain ⟨left, right⟩ := List.forall_mem_append.1 h
    obtain ⟨⟨t, head⟩, inside⟩ := List.forall_mem_cons.1 right
    cases head with
    | member _ measured =>
      exact .member _ _ (parsed_of_heads target left) (allParsed_of_heads arguments inside) measured
  | index p target i =>
    obtain ⟨left, own⟩ := List.forall_mem_append.1 h
    obtain ⟨t, head⟩ := own _ List.mem_cons_self
    cases head with
    | index _ hn measured =>
      obtain ⟨m, rfl⟩ := integerNumeral_nat hn
      exact .index _ m (parsed_of_heads target left) measured
  | call p f arguments =>
    obtain ⟨⟨t, head⟩, inside⟩ := List.forall_mem_cons.1 h
    cases head with
    | call _ measured => exact .call _ _ (allParsed_of_heads arguments inside) measured
  | unary p op operand =>
    obtain ⟨⟨t, head⟩, inside⟩ := List.forall_mem_cons.1 h
    cases head with
    | unary _ measured => exact .unary _ _ (parsed_of_heads operand inside) measured
  | binary p op left right =>
    obtain ⟨before, behind⟩ := List.forall_mem_append.1 h
    obtain ⟨⟨t, head⟩, inside⟩ := List.forall_mem_cons.1 behind
    cases head with
    | binary _ measured =>
      exact .binary _ _ (parsed_of_heads left before) (parsed_of_heads right inside) measured
  | otherUnary =>
    obtain ⟨t, head⟩ := h _ List.mem_cons_self
    cases head
  | otherBinary =>
    obtain ⟨t, head⟩ := h _ (List.mem_append_right _ List.mem_cons_self)
    cases head
  | foreign =>
    obtain ⟨t, head⟩ := h _ List.mem_cons_self
    cases head

theorem allParsed_of_heads (es : List Expr)
    (h : ∀ part ∈ allInOrder es, ∃ t : Token, t.Heads part) :
    ∀ e ∈ es, e.Parsed := by
  cases es with
  | nil => exact fun e he => absurd he List.not_mem_nil
  | cons e rest =>
    obtain ⟨first, others⟩ := List.forall_mem_append.1 h
    exact List.forall_mem_cons.2 ⟨parsed_of_heads e first, allParsed_of_heads rest others⟩

end

theorem ofTokens_parsed {stop : Location} {tokens : List Token} {e : Expr}
    (h : ofTokens stop tokens = .ok e) :
    e.Parsed := by
  refine parsed_of_heads e fun part inside => ?_
  obtain ⟨t, -, head⟩ := (cover_of_ofTokens h).exists_of_mem inside
  exact ⟨t, head⟩

end Stencil.Expr
