import Stencil.Proofs.Document.Alike
import Stencil.Proofs.Document.Depth
import Stencil.Proofs.Document.Unplaced
import Stencil.Proofs.Expr.Steps

/-! A render looks at positions only to tell them in a fault of depth. Templates that compile have
no such fault, so where their tags stand makes no difference. -/
namespace Stencil
open Outcome

def RenderFault.unplaced : RenderFault → RenderFault
  | tooDeep limit _ => tooDeep limit 0
  | fault => fault

/-- No other fault tells a position. -/
theorem Shallow.bimap_unplaced {α : Type} {r : Except RenderFault α} (h : Shallow r) :
    bimap RenderFault.unplaced id r = r := by
  cases r with
  | ok a => rfl
  | error fault =>
    cases fault with
    | tooDeep limit position => exact absurd rfl (h limit position)
    | _ => rfl

namespace Expr
variable {g : Globals} {scope : Scope} {site : Site}

theorem allUnplaced_eq_map (es : List Expr) : allUnplaced es = es.map unplaced := by
  induction es with
  | nil => rfl
  | cons e rest ih => rw [allUnplaced, ih, List.map_cons]

theorem position_unplaced (e : Expr) : e.unplaced.position = 0 := by cases e <;> rfl

theorem parts_unplaced (e : Expr) : e.unplaced.parts = e.parts.map unplaced := by
  cases e <;> simp [unplaced, parts, allUnplaced_eq_map]

theorem decided_unplaced (e : Expr) : e.unplaced.decided = e.decided := by
  funext vs
  cases e with
  | binary => rcases vs with _ | ⟨x, _ | _⟩ <;> rfl
  | _ => rfl

theorem conclude_unplaced (e : Expr) (vs : List Value) :
    e.unplaced.conclude g scope site vs = e.conclude g scope site vs := by
  cases e with
  | unary p op operand => cases op <;> rcases vs with _ | ⟨v, _ | _⟩ <;> rfl
  | _ => rcases vs with _ | ⟨v, _ | ⟨w, _ | _⟩⟩ <;> rfl

theorem conclude_shallow (e : Expr) (vs : List Value) : Shallow (e.conclude g scope site vs) := by
  unfold conclude
  split
  all_goals first
    | exact lookup_shallow _ _
    | exact Value.member_shallow _ _ _ _
    | exact Value.index_shallow _ _
    | exact GlobalFunction.call_shallow _ _ _
    | exact signed_shallow _ _ _
    | exact combine_shallow _ _ _ _
    | simp

theorem checkDepth_unplaced (site : Site) (position : Nat) :
    bimap RenderFault.unplaced id (checkDepth site position) = checkDepth site 0 := by
  unfold checkDepth
  split <;> rfl

theorem evalUntil_unplaced {stop : List Value → Bool} {es : List Expr}
    (h : ∀ e ∈ es, ∀ site,
      bimap RenderFault.unplaced id (e.eval g scope site) = e.unplaced.eval g scope site)
    (done : List Value) :
    bimap RenderFault.unplaced id (evalUntil g scope site stop done es) =
      evalUntil g scope site stop done (es.map unplaced) := by
  induction es generalizing done with
  | nil => rfl
  | cons e rest ih =>
    obtain ⟨first, others⟩ := List.forall_mem_cons.1 h
    rw [List.map_cons, evalUntil, evalUntil]
    split
    · rfl
    · exact bimap_bind (first _) fun v => ih others _

theorem eval_unplaced (e : Expr) (site : Site) :
    bimap RenderFault.unplaced id (e.eval g scope site) = e.unplaced.eval g scope site := by
  induction hn : sizeOf e using Nat.strong_induction_on generalizing e site with
  | _ n ih =>
    subst hn
    have inside : ∀ part ∈ e.parts, ∀ site,
        bimap RenderFault.unplaced id (part.eval g scope site) = part.unplaced.eval g scope site :=
      fun part hp site => ih _ (sizeOf_lt_of_mem_parts hp) part site rfl
    rw [eval_eq, eval_eq, position_unplaced, parts_unplaced, decided_unplaced]
    refine bimap_bind (checkDepth_unplaced site e.position) fun _ => ?_
    refine bimap_bind (evalUntil_unplaced inside []) fun vs => ?_
    rw [(conclude_shallow e vs).bimap_unplaced, id, conclude_unplaced]

end Expr

namespace Node
variable {g : Globals}

mutual

theorem render_unplaced (n : Node) (scope : Scope) (loops depth : Nat) :
    bimap RenderFault.unplaced id (n.render g scope loops depth) =
      n.unplaced.render g scope loops depth := by
  cases n with
  | text | foreign => rfl
  | output p e escape =>
    exact bimap_bind (Expr.eval_unplaced e _) fun v =>
      (shown_shallow g.room escape v).bimap_unplaced
  | conditional p branches otherwise =>
    rw [unplaced, render, render]
    split
    · refine bimap_bind (renderBranches_unplaced branches scope loops (depth + 1)) fun found => ?_
      cases found with
      | some pieces => rfl
      | none => exact renderOtherwise_unplaced otherwise scope loops (depth + 1)
    · rfl
  | loop p x collection body =>
    rw [unplaced, render, render]
    split
    · refine bimap_bind (Expr.eval_unplaced collection _) fun v => ?_
      cases v with
      | list items =>
        exact bimap_gather
          (fun v => renderAll_unplaced body ((x, v) :: scope) (loops + 1) (depth + 1)) items
      | _ => rfl
    · rfl

theorem renderAll_unplaced (nodes : List Node) (scope : Scope) (loops depth : Nat) :
    bimap RenderFault.unplaced id (renderAll g scope loops depth nodes) =
      renderAll g scope loops depth (nodesUnplaced nodes) := by
  cases nodes with
  | nil => rfl
  | cons n rest =>
    rw [nodesUnplaced, renderAll, renderAll]
    refine bimap_bind (render_unplaced n scope loops depth) fun pieces => ?_
    exact bimap_bind (renderAll_unplaced rest scope loops depth) fun _ => rfl

theorem renderBranches_unplaced (branches : List Branch) (scope : Scope) (loops depth : Nat) :
    bimap RenderFault.unplaced id (renderBranches g scope loops depth branches) =
      renderBranches g scope loops depth (branchesUnplaced branches) := by
  cases branches with
  | nil => rfl
  | cons b rest =>
    obtain ⟨condition, body⟩ := b
    rw [branchesUnplaced, renderBranches, renderBranches]
    refine bimap_bind (Expr.eval_unplaced condition _) fun v => ?_
    cases hv : v.truthy with
    | true =>
      simp only [id, hv, if_true]
      exact bimap_bind (renderAll_unplaced body scope loops depth) fun _ => rfl
    | false =>
      simp only [id, hv]
      exact renderBranches_unplaced rest scope loops depth

theorem renderOtherwise_unplaced (otherwise : Option (List Node)) (scope : Scope)
    (loops depth : Nat) :
    bimap RenderFault.unplaced id (renderOtherwise g scope loops depth otherwise) =
      renderOtherwise g scope loops depth (otherwiseUnplaced otherwise) := by
  cases otherwise with
  | none => rfl
  | some body => exact renderAll_unplaced body scope loops depth

end

end Node

namespace Document

/-- The positions in a template that compiles make no difference to any render. -/
theorem render_unplaced_of_parse {source : String} {d : Document} (h : parse source = .ok d)
    (g : Globals) (scope : Scope) : d.unplaced.render g scope = d.render g scope := by
  have shallow : Shallow (d.pieces g scope) :=
    Node.renderAll_shallow (fun n hn => (parse_parsed h n hn).render_shallow) scope 0
  rw [render, render, ← shallow.bimap_unplaced, pieces, pieces]
  exact congrArg _ (Node.renderAll_unplaced d.nodes scope 0 0).symm

end Document
end Stencil
