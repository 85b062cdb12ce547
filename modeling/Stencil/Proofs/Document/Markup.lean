import Stencil.Proofs.Document.Linear
import Stencil.Proofs.Text.Markup

/-! Every piece of a render is a text of the document, or the text of a value that an output of the
document came to. Where all outputs are escaped, no value can bring markup of its own. -/
namespace Stencil
open Outcome

inductive Origin (g : Globals) (row : List Action) : String → Prop where
  | text {content : String} : .text content ∈ row → Origin g row content
  | output {e : Expr} {escape : Bool} {scope : Scope} {site : Site} {v : Value} {shown : String} :
      .output e escape ∈ row → e.eval g scope site = .ok v → v.display g.room = .ok shown →
      Origin g row (if escape then Text.escapeMarkup shown else shown)

theorem Origin.mono {g : Globals} {row row' : List Action} {piece : String} (h : Origin g row piece)
    (sub : row ⊆ row') : Origin g row' piece := by
  cases h with
  | text inside => exact .text (sub inside)
  | output inside evaluated shown => exact .output (sub inside) evaluated shown

def Traced (g : Globals) (row : List Action) : Except RenderFault (List String) → Prop :=
  Meets (fun pieces => ∀ piece ∈ pieces, Origin g row piece) fun _ => True

theorem Traced.mono {g : Globals} {row row' : List Action} {r : Except RenderFault (List String)}
    (h : Traced g row r) (sub : row ⊆ row') : Traced g row' r :=
  h.imp (fun _ origins piece hp => (origins piece hp).mono sub) fun _ => id

theorem gather_traced {α : Type} {g : Globals} {row : List Action}
    {f : α → Except RenderFault (List String)} (h : ∀ x, Traced g row (f x)) (items : List α) :
    Traced g row (gather f items) := by
  induction items with
  | nil => exact fun _ hp => absurd hp List.not_mem_nil
  | cons x rest ih =>
    rw [gather_cons]
    exact (h x).bind fun pieces first =>
      ih.map fun others later => List.forall_mem_append.2 ⟨first, later⟩

namespace Node
variable {g : Globals}

mutual

theorem render_traced (n : Node) (scope : Scope) (loops depth : Nat) :
    Traced g n.actions (n.render g scope loops depth) := by
  cases n with
  | text p content => exact List.forall_mem_singleton.2 (.text List.mem_cons_self)
  | output p e escape =>
    refine (meets_any (e.eval g scope ⟨loops, []⟩)).bind_eq fun v evaluated _ => ?_
    rw [shown]
    cases displayed : v.display g.room with
    | error fault => exact trivial
    | ok s => exact List.forall_mem_singleton.2 (.output List.mem_cons_self evaluated displayed)
  | conditional p branches otherwise =>
    rw [render, actions]
    split
    · refine (renderBranches_traced true branches scope loops (depth + 1)).bind
        fun found origins => ?_
      cases found with
      | some pieces => exact fun piece hp => (origins pieces rfl piece hp).mono (by simp)
      | none => exact (renderOtherwise_traced otherwise scope loops (depth + 1)).mono (by simp)
    · exact trivial
  | loop p x collection body =>
    rw [render, actions]
    split
    · refine (meets_any (collection.eval g scope ⟨loops, []⟩)).bind fun v _ => ?_
      split
      · exact gather_traced
          (fun x => (renderAll_traced body _ (loops + 1) (depth + 1)).mono (by simp)) _
      · exact trivial
    · exact trivial
  | foreign kind => exact trivial

theorem renderAll_traced (nodes : List Node) (scope : Scope) (loops depth : Nat) :
    Traced g (nodesActions nodes) (renderAll g scope loops depth nodes) := by
  cases nodes with
  | nil => exact fun _ hp => absurd hp List.not_mem_nil
  | cons n rest =>
    rw [nodesActions]
    have first : Traced g (n.actions ++ nodesActions rest) (n.render g scope loops depth) :=
      (render_traced n scope loops depth).mono (List.subset_append_left _ _)
    have later : Traced g (n.actions ++ nodesActions rest) (renderAll g scope loops depth rest) :=
      (renderAll_traced rest scope loops depth).mono (List.subset_append_right _ _)
    exact first.bind fun pieces h => later.bind fun others h' => List.forall_mem_append.2 ⟨h, h'⟩

theorem renderBranches_traced (first : Bool) (branches : List Branch) (scope : Scope)
    (loops depth : Nat) :
    Meets (fun found => ∀ pieces ∈ found,
      ∀ piece ∈ pieces, Origin g (branchesActions first branches) piece)
      (fun _ => True) (renderBranches g scope loops depth branches) := by
  cases branches with
  | nil =>
    intro found given
    cases given
  | cons b rest =>
    obtain ⟨condition, body⟩ := b
    rw [renderBranches, branchesActions]
    refine (meets_any (condition.eval g scope ⟨loops, []⟩)).bind fun v _ => ?_
    split
    · refine (renderAll_traced body scope loops depth).bind fun pieces origins => ?_
      intro found given
      cases given
      exact fun piece hp => (origins piece hp).mono (by simp)
    · refine (renderBranches_traced false rest scope loops depth).imp ?_ fun _ => id
      exact fun found origins pieces given piece hp =>
        (origins pieces given piece hp).mono (by simp)

theorem renderOtherwise_traced (otherwise : Option (List Node)) (scope : Scope)
    (loops depth : Nat) :
    Traced g (otherwiseActions otherwise) (renderOtherwise g scope loops depth otherwise) := by
  cases otherwise with
  | none => exact fun _ hp => absurd hp List.not_mem_nil
  | some body => exact (renderAll_traced body scope loops depth).mono (by simp [otherwiseActions])

end

end Node

namespace Document
open Node (nodesActions)

/-- No value can bring markup into a document whose outputs are all escaped: what is rendered is
made up of pieces, each of them a text of the document, or one that shows the text of a value to
which an output came. -/
theorem render_escaped {d : Document} {g : Globals} {scope : Scope} {text : String}
    (escaped : ∀ e escape, .output e escape ∈ nodesActions d.nodes → escape = true)
    (rendered : d.render g scope = .ok text) :
    ∃ pieces, text = String.join pieces ∧ ∀ piece ∈ pieces,
      .text piece ∈ nodesActions d.nodes ∨
        ∃ (e : Expr) (inner : Scope) (site : Site) (v : Value) (shown : String),
          .output e true ∈ nodesActions d.nodes ∧ e.eval g inner site = .ok v ∧
          v.display g.room = .ok shown ∧
          piece = Text.escapeMarkup shown ∧ Text.Shows piece shown := by
  obtain ⟨pieces, made, rfl⟩ := map_eq_ok_iff.1 rendered
  refine ⟨pieces, rfl, fun piece hp => ?_⟩
  have traced : Traced g (nodesActions d.nodes) (d.pieces g scope) :=
    Node.renderAll_traced d.nodes scope 0 0
  rw [made] at traced
  cases traced piece hp with
  | text inside => exact .inl inside
  | @output e escape inner site v shown inside evaluated displayed =>
    obtain rfl := escaped e escape inside
    rw [if_pos rfl]
    exact .inr ⟨e, inner, site, v, shown, inside, evaluated, displayed, rfl,
      Text.escapeMarkup_shows shown⟩

/-- A value that looks like markup, entities included, in a loop. -/
theorem render_escaped_script :
    ∃ (g : Globals) (d : Document),
      parse "<% for x in xs %><i><%= x %></i><% end %>" = .ok d ∧
      d.render g [("xs", .list [.string "<br>", .string "&lt;"])] =
        .ok "<i>&lt;br&gt;</i><i>&amp;lt;</i>" ∧
      ∃ pieces, "<i>&lt;br&gt;</i><i>&amp;lt;</i>" = String.join pieces ∧ ∀ piece ∈ pieces,
        .text piece ∈ nodesActions d.nodes ∨
          ∃ (e : Expr) (inner : Scope) (site : Site) (v : Value) (shown : String),
            .output e true ∈ nodesActions d.nodes ∧ e.eval g inner site = .ok v ∧
            v.display g.room = .ok shown ∧
            piece = Text.escapeMarkup shown ∧ Text.Shows piece shown := by
  let g : Globals := ⟨CipherKey.derived [], ⟨0, []⟩, "turbo.js", 900⟩
  let d : Document :=
    ⟨[.loop 3 "x" (.name 12 "xs") [.text 17 "<i>", .output 20 (.name 24 "x") true,
      .text 28 "</i>"]]⟩
  have h : parse "<% for x in xs %><i><%= x %></i><% end %>" = .ok d := by cbv
  have rendered : d.render g [("xs", .list [.string "<br>", .string "&lt;"])] =
      .ok "<i>&lt;br&gt;</i><i>&amp;lt;</i>" := by cbv
  refine ⟨g, d, h, rendered, render_escaped ?_ rendered⟩
  intro e escape inside
  have actions : nodesActions d.nodes =
      [.for_ "x" (.name 12 "xs"), .text "<i>", .output (.name 24 "x") true, .text "</i>", .end_] :=
      rfl
  rw [actions] at inside
  simp only [List.mem_cons, Action.output.injEq, reduceCtorEq, List.not_mem_nil, or_false,
    false_or] at inside
  exact inside.2

end Document
end Stencil
