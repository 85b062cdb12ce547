import Mathlib
import Stencil.Document.Render
import Stencil.Proofs.Document.Parsed
import Stencil.Proofs.Expr.Steps
import Stencil.Proofs.Value.Depth

/-! Templates that compile are never too deep to be rendered: the parser bounds the height of
expressions and the nesting of blocks, and rendering goes no deeper than both. -/
namespace Stencil

namespace Expr
variable (g : Globals) (scope : Scope)

theorem lookup_shallow (x : String) : Shallow (lookup scope x) := by
  unfold lookup
  split <;> simp

theorem signed_shallow (negate : Bool) (text : String) (v : Value) :
    Shallow (signed negate text v) := by
  unfold signed
  split
  · split
    · exact .map _ (checkInteger_shallow _ _)
    · simp
  · simp
  · simp

theorem combine_shallow (room : Nat) (op : Operator) (x y : Value) :
    Shallow (combine room op x y) := by
  unfold combine
  split
  all_goals first
    | exact .map _ (Value.equalWithin_shallow _ _ _)
    | exact .map _ (Value.ordered_shallow _ _ _)
    | exact Value.arithmetic_shallow _ _ _
    | simp

mutual

/-- An expression that is not higher than the levels left below its site is evaluated without a
fault of depth. -/
theorem eval_shallow (e : Expr) (site : Site) (h : site.depth + e.height ≤ evalLimit + 1) :
    Shallow (eval g scope site e) := by
  cases e with
  | literal p v =>
    rw [height] at h
    rw [eval, checkDepth_eq_ok (by omega)]
    simp
  | name p x =>
    rw [height] at h
    rw [eval, checkDepth_eq_ok (by omega)]
    exact lookup_shallow scope x
  | list p items =>
    rw [height] at h
    rw [eval, checkDepth_eq_ok (by omega)]
    refine (evalAll_shallow items site 0 (by omega)).bind fun values => ?_
    simp
  | member p target x arguments =>
    rw [height] at h
    rw [eval, checkDepth_eq_ok (by omega)]
    refine (eval_shallow target (site.part 0) (by rw [depth_part]; omega)).bind fun v => ?_
    refine (evalAll_shallow arguments site 1 (by omega)).bind fun args => ?_
    exact Value.member_shallow site v x args
  | index p target i =>
    rw [height] at h
    rw [eval, checkDepth_eq_ok (by omega)]
    refine (eval_shallow target (site.part 0) (by rw [depth_part]; omega)).bind fun v => ?_
    exact Value.index_shallow v i
  | call p f arguments =>
    rw [height] at h
    rw [eval, checkDepth_eq_ok (by omega)]
    refine (evalAll_shallow arguments site 0 (by omega)).bind fun args => ?_
    exact GlobalFunction.call_shallow g f args
  | unary p op operand =>
    rw [height] at h
    rw [eval, checkDepth_eq_ok (by omega)]
    refine (eval_shallow operand (site.part 0) (by rw [depth_part]; omega)).bind fun v => ?_
    cases op with
    | not => simp
    | negate => exact signed_shallow _ _ _
    | plus => exact signed_shallow _ _ _
  | binary p op left right =>
    rw [height] at h
    rw [eval, checkDepth_eq_ok (by omega)]
    refine (eval_shallow left (site.part 0) (by rw [depth_part]; omega)).bind fun x => ?_
    split
    · simp
    · split
      · simp
      · refine (eval_shallow right (site.part 1) (by rw [depth_part]; omega)).bind fun y => ?_
        exact combine_shallow g.room op x y
  | otherUnary p op operand =>
    rw [height] at h
    rw [eval, checkDepth_eq_ok (by omega)]
    refine (eval_shallow operand (site.part 0) (by rw [depth_part]; omega)).bind fun v => ?_
    exact signed_shallow _ _ _
  | otherBinary p op left right =>
    rw [height] at h
    rw [eval, checkDepth_eq_ok (by omega)]
    refine (eval_shallow left (site.part 0) (by rw [depth_part]; omega)).bind fun x => ?_
    refine (eval_shallow right (site.part 1) (by rw [depth_part]; omega)).bind fun y => ?_
    simp
  | foreign p kind =>
    rw [height] at h
    rw [eval, checkDepth_eq_ok (by omega)]
    simp

theorem evalAll_shallow (es : List Expr) (site : Site) (n : Nat)
    (h : site.depth + 1 + heights es ≤ evalLimit + 1) :
    Shallow (evalAll g scope site n es) := by
  cases es with
  | nil => simp [evalAll]
  | cons e rest =>
    rw [heights] at h
    refine (eval_shallow e (site.part n) (by rw [depth_part]; omega)).bind fun v => ?_
    refine (evalAll_shallow rest site (n + 1) (by omega)).bind fun vs => ?_
    simp

end

/-- No part of a parsed expression lies too deep. -/
theorem Parsed.eval_shallow {e : Expr} (h : e.Parsed) (loops : Nat) :
    Shallow (e.eval g scope ⟨loops, []⟩) := by
  apply Expr.eval_shallow
  have := h.height_le
  simp only [Site.depth, List.length_nil, depthLimit, evalLimit] at this ⊢
  omega

end Expr

theorem gather_shallow {α β : Type} {f : α → Except RenderFault (List β)} (h : ∀ x, Shallow (f x))
    (items : List α) :
    Shallow (gather f items) := by
  induction items with
  | nil => simp [gather, gatherOnto]
  | cons x rest ih =>
    rw [gather_cons]
    exact (h x).bind fun more => ih.map _

namespace Node
variable {g : Globals}

theorem shown_shallow (room : Nat) (escape : Bool) (v : Value) :
    Shallow (shown room escape v) := (Value.display_shallow room v).map _

theorem renderAll_shallow {nodes : List Node} {depth : Nat}
    (h : ∀ n ∈ nodes, ∀ scope loops, Shallow (n.render g scope loops depth)) (scope : Scope)
    (loops : Nat) :
    Shallow (renderAll g scope loops depth nodes) := by
  induction nodes with
  | nil => simp [renderAll]
  | cons n rest ih =>
    obtain ⟨hn, hrest⟩ := List.forall_mem_cons.1 h
    refine (hn scope loops).bind fun pieces => ?_
    refine (ih hrest).bind fun others => ?_
    simp

theorem renderBranches_shallow {branches : List Branch} {depth : Nat}
    (hc : ∀ b ∈ branches, b.condition.Parsed)
    (h : ∀ b ∈ branches, ∀ n ∈ b.body, ∀ scope loops, Shallow (n.render g scope loops depth))
    (scope : Scope) (loops : Nat) : Shallow (renderBranches g scope loops depth branches) := by
  induction branches with
  | nil => simp [renderBranches]
  | cons b rest ih =>
    obtain ⟨condition, body⟩ := b
    obtain ⟨hcondition, hconditions⟩ := List.forall_mem_cons.1 hc
    obtain ⟨hbody, hrest⟩ := List.forall_mem_cons.1 h
    rw [renderBranches]
    refine (hcondition.eval_shallow g scope loops).bind fun v => ?_
    split
    · refine (renderAll_shallow hbody scope loops).bind fun pieces => ?_
      simp
    · exact ih hconditions hrest

/-- Rendering goes as deep as blocks may stand open. -/
theorem renderLimit_eq_blockLimit : renderLimit = Draft.blockLimit := rfl

/-- A parsed node is rendered without a fault of depth, whatever the scope. -/
theorem Parsed.render_shallow {k : Nat} {n : Node} (h : n.Parsed k) (scope : Scope) (loops : Nat) :
    Shallow (n.render g scope loops k) := by
  induction h generalizing scope loops with
  | text k p content => simp [render]
  | output k p escape he =>
    rw [render]
    exact (he.eval_shallow g scope loops).bind fun v => shown_shallow g.room escape v
  | conditional p limit _ conditions _ _ bodies others =>
    rw [render, renderLimit_eq_blockLimit, if_pos limit]
    refine (renderBranches_shallow conditions bodies scope loops).bind fun found => ?_
    split
    · simp
    · unfold renderOtherwise
      split
      · simp
      · exact renderAll_shallow (others _ rfl) scope loops
  | loop p item limit hcollection _ nodes =>
    rw [render, renderLimit_eq_blockLimit, if_pos limit]
    refine (hcollection.eval_shallow g scope loops).bind fun v => ?_
    split
    · exact gather_shallow (fun x => renderAll_shallow nodes _ _) _
    · simp

mutual

def nesting : Node → Nat
  | text .. | output .. | foreign _ => 0
  | conditional _ branches otherwise =>
    1 + max (branchesNesting branches) (otherwiseNesting otherwise)
  | loop _ _ _ body => 1 + nodesNesting body

def nodesNesting : List Node → Nat
  | [] => 0
  | n :: rest => max (nesting n) (nodesNesting rest)

def branchesNesting : List Branch → Nat
  | [] => 0
  | .mk _ body :: rest => max (nodesNesting body) (branchesNesting rest)

def otherwiseNesting : Option (List Node) → Nat
  | none => 0
  | some body => nodesNesting body

end

mutual

def expressions : Node → List Expr
  | text .. | foreign _ => []
  | output _ e _ => [e]
  | conditional _ branches otherwise =>
    branchesExpressions branches ++ otherwiseExpressions otherwise
  | loop _ _ collection body => collection :: nodesExpressions body

def nodesExpressions : List Node → List Expr
  | [] => []
  | n :: rest => expressions n ++ nodesExpressions rest

def branchesExpressions : List Branch → List Expr
  | [] => []
  | .mk condition body :: rest => condition :: nodesExpressions body ++ branchesExpressions rest

def otherwiseExpressions : Option (List Node) → List Expr
  | none => []
  | some body => nodesExpressions body

end

theorem nodesNesting_le {nodes : List Node} {m : Nat} (h : ∀ n ∈ nodes, n.nesting ≤ m) :
    nodesNesting nodes ≤ m := by
  induction nodes with
  | nil => simp [nodesNesting]
  | cons n rest ih =>
    obtain ⟨hn, hrest⟩ := List.forall_mem_cons.1 h
    exact Nat.max_le.2 ⟨hn, ih hrest⟩

theorem branchesNesting_le {branches : List Branch} {m : Nat}
    (h : ∀ b ∈ branches, ∀ n ∈ b.body, n.nesting ≤ m) :
    branchesNesting branches ≤ m := by
  induction branches with
  | nil => simp [branchesNesting]
  | cons b rest ih =>
    obtain ⟨condition, body⟩ := b
    obtain ⟨hb, hrest⟩ := List.forall_mem_cons.1 h
    exact Nat.max_le.2 ⟨nodesNesting_le hb, ih hrest⟩

theorem forall_nodesExpressions {P : Expr → Prop} {nodes : List Node}
    (h : ∀ n ∈ nodes, ∀ e ∈ n.expressions, P e) :
    ∀ e ∈ nodesExpressions nodes, P e := by
  induction nodes with
  | nil => simp [nodesExpressions]
  | cons n rest ih =>
    obtain ⟨hn, hrest⟩ := List.forall_mem_cons.1 h
    exact List.forall_mem_append.2 ⟨hn, ih hrest⟩

theorem forall_branchesExpressions {P : Expr → Prop} {branches : List Branch}
    (hc : ∀ b ∈ branches, P b.condition)
    (h : ∀ b ∈ branches, ∀ n ∈ b.body, ∀ e ∈ n.expressions, P e) :
    ∀ e ∈ branchesExpressions branches, P e := by
  induction branches with
  | nil => simp [branchesExpressions]
  | cons b rest ih =>
    obtain ⟨condition, body⟩ := b
    obtain ⟨hcondition, hconditions⟩ := List.forall_mem_cons.1 hc
    obtain ⟨hb, hrest⟩ := List.forall_mem_cons.1 h
    rw [branchesExpressions]
    exact List.forall_mem_append.2 ⟨List.forall_mem_cons.2 ⟨hcondition, forall_nodesExpressions hb⟩,
      ih hconditions hrest⟩

theorem Parsed.nesting_le {k : Nat} {n : Node} (h : n.Parsed k) :
    n.nesting ≤ Draft.blockLimit - k := by
  induction h with
  | text | output => simp [nesting]
  | @conditional k p branches otherwise limit _ _ _ _ bodies others =>
    have hb : branchesNesting branches ≤ Draft.blockLimit - (k + 1) := branchesNesting_le bodies
    have ho : otherwiseNesting otherwise ≤ Draft.blockLimit - (k + 1) := by
      cases otherwise with
      | none => simp [otherwiseNesting]
      | some body => exact nodesNesting_le (others body rfl)
    rw [nesting]
    omega
  | @loop k p item collection body limit _ _ nodes =>
    have hb : nodesNesting body ≤ Draft.blockLimit - (k + 1) := nodesNesting_le nodes
    rw [nesting]
    omega

theorem Parsed.expressions_parsed {k : Nat} {n : Node} (h : n.Parsed k) :
    ∀ e ∈ n.expressions, e.Parsed := by
  induction h with
  | text => simp [expressions]
  | output k p escape he => simpa [expressions] using he
  | @conditional k p branches otherwise _ _ conditions _ _ bodies others =>
    rw [expressions]
    refine List.forall_mem_append.2 ⟨forall_branchesExpressions conditions bodies, ?_⟩
    cases otherwise with
    | none => simp [otherwiseExpressions]
    | some body => exact forall_nodesExpressions (others body rfl)
  | loop p item _ hcollection _ nodes =>
    rw [expressions]
    exact List.forall_mem_cons.2 ⟨hcollection, forall_nodesExpressions nodes⟩

end Node

namespace Document

def nesting (d : Document) : Nat := Node.nodesNesting d.nodes

def expressions (d : Document) : List Expr := Node.nodesExpressions d.nodes

/-- A template that compiles keeps both limits, and so no render of it, in any scope and with any
functions, ends in a fault of depth. -/
theorem parse_within_limits (source : String) (d : Document) (h : parse source = .ok d) :
    (∀ e ∈ d.expressions, e.height ≤ 64) ∧ d.nesting ≤ 128 ∧
      ∀ (g : Globals) (scope : Scope) (limit position : Nat),
        d.render g scope ≠ .error (.tooDeep limit position) := by
  have parsed := parse_parsed h
  refine ⟨?_, ?_, ?_⟩
  · intro e he
    exact (Node.forall_nodesExpressions (fun n hn => (parsed n hn).expressions_parsed)
      e he).height_le
  · exact Node.nodesNesting_le fun n hn => (parsed n hn).nesting_le
  · intro g scope
    exact (Node.renderAll_shallow (fun n hn => (parsed n hn).render_shallow) scope 0).map _

/-- A condition around an output keeps the limits. -/
theorem conditional_within_limits :
    ∃ d, parse "<% if a && b %><%= c.d %><% end %>" = .ok d ∧ (∀ e ∈ d.expressions, e.height ≤ 64) ∧
      d.nesting ≤ 128 ∧
      ∀ (g : Globals) (scope : Scope) (limit position : Nat),
        d.render g scope ≠ .error (.tooDeep limit position) := by
  have h : parse "<% if a && b %><%= c.d %><% end %>" =
      .ok ⟨[.conditional 3 [.mk (.binary 8 .and (.name 6 "a") (.name 11 "b"))
        [.output 15 (.member 21 (.name 19 "c") "d" []) true]] none]⟩ := by cbv
  exact ⟨_, h, parse_within_limits _ _ h⟩

end Document

end Stencil
