import Stencil.Document.Render
import Stencil.Proofs.Outcome

/-! Rows of nodes, one behind another and in the place of one another. Two rows are rendered alike
if they give the same wherever they stand, faults being seen through a view. -/
namespace Stencil
open Outcome

/-- A row is gathered in the same way if faults are seen through a view. -/
theorem bimap_gather {ε ε' α β : Type} {view : ε → ε'} {f : α → Except ε (List β)}
    {f' : α → Except ε' (List β)} (h : ∀ x, bimap view id (f x) = f' x) (items : List α) :
    bimap view id (gather f items) = gather f' items := by
  induction items with
  | nil => rfl
  | cons x rest ih =>
    rw [gather_cons, gather_cons, ← ih]
    exact bimap_bind (h x) fun more => bimap_map view (gather f rest) (more ++ ·)

namespace Node

theorem renderAll_append (g : Globals) (scope : Scope) (loops depth : Nat) (u v : List Node) :
    renderAll g scope loops depth (u ++ v) =
      renderAll g scope loops depth u >>= fun pieces =>
        (renderAll g scope loops depth v).map (pieces ++ ·) := by
  induction u with
  | nil => cases h : renderAll g scope loops depth v <;> simp [renderAll, h]
  | cons n u ih =>
    rw [List.cons_append, renderAll, renderAll, ih]
    cases n.render g scope loops depth with
    | error fault => rfl
    | ok pieces =>
      cases renderAll g scope loops depth u with
      | error fault => rfl
      | ok others => cases renderAll g scope loops depth v <;> simp

section Alike
variable {β : Type} {view : RenderFault → β} {g : Globals} {u v : List Node}

/-- The outcome is the same wherever the nodes stand, faults being seen through a view. -/
def Alike (view : RenderFault → β) (g : Globals) (u v : List Node) : Prop :=
  ∀ scope loops depth,
    bimap view id (renderAll g scope loops depth u) =
      bimap view id (renderAll g scope loops depth v)

theorem Alike.beside (h : Alike view g u v) (before after : List Node) :
    Alike view g (before ++ u ++ after) (before ++ v ++ after) := by
  intro scope loops depth
  simp only [renderAll_append]
  refine bimap_bind_congr ?_ fun pieces => rfl
  exact bimap_bind_congr rfl fun pieces => by rw [bimap_map, bimap_map, h scope loops depth]

theorem alike_singleton {n m : Node}
    (h : ∀ scope loops depth,
      bimap view id (n.render g scope loops depth) = bimap view id (m.render g scope loops depth)) :
    Alike view g [n] [m] :=
  fun scope loops depth => bimap_bind_congr (h scope loops depth) fun _ => rfl

theorem Alike.loop (h : Alike view g u v) (p : Nat) (item : String) (collection : Expr) :
    Alike view g [.loop p item collection u] [.loop p item collection v] := by
  refine alike_singleton fun scope loops depth => ?_
  rw [render, render]
  split
  · refine bimap_bind_congr rfl fun value => ?_
    split
    · rw [bimap_gather fun x => h _ _ _]
      exact (bimap_gather (fun x => rfl) _).symm
    · rfl
  · rfl

theorem renderBranches_alike (h : Alike view g u v) (earlier : List Branch) (condition : Expr)
    (later : List Branch) (scope : Scope) (loops depth : Nat) :
    bimap view id (renderBranches g scope loops depth (earlier ++ .mk condition u :: later)) =
      bimap view id (renderBranches g scope loops depth (earlier ++ .mk condition v :: later)) := by
  induction earlier with
  | nil =>
    refine bimap_bind_congr rfl fun value => ?_
    split
    · exact bimap_bind_congr (h scope loops depth) fun _ => rfl
    · rfl
  | cons b earlier ih =>
    obtain ⟨c, body⟩ := b
    refine bimap_bind_congr rfl fun value => ?_
    split
    · rfl
    · exact ih

theorem Alike.branch (h : Alike view g u v) (p : Nat) (earlier : List Branch) (condition : Expr)
    (later : List Branch) (otherwise : Option (List Node)) :
    Alike view g [.conditional p (earlier ++ .mk condition u :: later) otherwise]
      [.conditional p (earlier ++ .mk condition v :: later) otherwise] := by
  refine alike_singleton fun scope loops depth => ?_
  rw [render, render]
  split
  · exact bimap_bind_congr (renderBranches_alike h earlier condition later _ _ _) fun _ => rfl
  · rfl

theorem Alike.otherwise (h : Alike view g u v) (p : Nat) (branches : List Branch) :
    Alike view g [.conditional p branches (some u)] [.conditional p branches (some v)] := by
  refine alike_singleton fun scope loops depth => ?_
  rw [render, render]
  split
  · refine bimap_bind_congr rfl fun found => ?_
    cases found with
    | some pieces => rfl
    | none => exact h _ _ _
  · rfl

end Alike

end Node
end Stencil
