import Mathlib
import Stencil.Proofs.Document.Sound
import Stencil.Proofs.Record.Paired
import Stencil.Template

/-! Renders side by side. A template takes scopes whose values stand side by side to one and the
same text, or to the same fault; if it compares for equality, the records must do so alike. -/
namespace Stencil
open Outcome

namespace Expr

def IsEquality (op : Operator) : Prop := op = .equal ∨ op = .notEqual

inductive Compares : Expr → Prop where
  | here (p : Nat) {op : Operator} (left right : Expr) :
      IsEquality op → Compares (.binary p op left right)
  | part {e e' : Expr} : e' ∈ e.parts → Compares e' → Compares e

variable {R : Record → Record → Prop} {g : Globals} {scope scope' : Scope} {site : Site} {e : Expr}
  {vs ws : List Value}

theorem lookup_paired (hs : Value.EntriesPaired R scope scope') (x : String) :
    Outcome.Paired (Value.Paired R) (lookup scope x) (lookup scope' x) := by
  unfold lookup
  rcases hs.lookup x with ⟨left, right⟩ | ⟨v, w, left, right, found⟩
  · rw [left, right]
    exact .error _
  · rw [left, right]
    exact .ok found

theorem decided_paired (e : Expr) (h : List.Forall₂ (Value.Paired R) vs ws) :
    e.decided vs = e.decided ws := by
  cases e with
  | binary p op left right =>
    cases h with
    | nil => rfl
    | cons first others =>
      cases others with
      | nil => rw [decided, decided, first.truthy]
      | cons => rfl
  | _ => rfl

theorem evalUntil_paired {stop : List Value → Bool} {es : List Expr}
    (same : ∀ vs ws, List.Forall₂ (Value.Paired R) vs ws → stop vs = stop ws)
    (h : ∀ e ∈ es,
      ∀ site, Outcome.Paired (Value.Paired R) (e.eval g scope site) (e.eval g scope' site))
    (hd : List.Forall₂ (Value.Paired R) vs ws) :
    Outcome.Paired (List.Forall₂ (Value.Paired R)) (evalUntil g scope site stop vs es)
      (evalUntil g scope' site stop ws es) := by
  induction es generalizing vs ws with
  | nil => exact .ok hd
  | cons e rest ih =>
    obtain ⟨first, others⟩ := List.forall_mem_cons.1 h
    rw [evalUntil, evalUntil, same vs ws hd, hd.length_eq]
    split
    · exact .ok hd
    · exact (first _).bind fun v w found => ih others (List.rel_append hd (.cons found .nil))

theorem Literal.isPlain {v : Value} (h : Literal v) : v.IsPlain = true := by cases h <;> rfl

theorem conclude_paired (pairing : Record.Pairing R) (hs : Value.EntriesPaired R scope scope')
    (parsed : e.Parsed) (keeps : e.Compares → Record.Keeps R)
    (h : List.Forall₂ (Value.Paired R) vs ws) :
    Outcome.Paired (Value.Paired R) (e.conclude g scope site vs) (e.conclude g scope' site ws) := by
  cases parsed with
  | literal p written => exact .ok (.plain written.isPlain)
  | name p x => exact lookup_paired hs x
  | list p items => exact .ok (.list h)
  | member p x target arguments =>
    cases h with
    | nil => exact .ok (.plain rfl)
    | cons first args => exact Value.member_paired pairing site first x args
  | index p i target =>
    cases h with
    | nil => exact .ok (.plain rfl)
    | cons first others =>
      cases others with
      | nil => exact Value.index_paired first i
      | cons => exact .ok (.plain rfl)
  | call p f arguments => exact Value.function_paired g f h
  | unary p op operand =>
    cases h with
    | nil => cases op <;> exact .ok (.plain rfl)
    | cons first others =>
      cases others with
      | nil =>
        cases op with
        | not =>
          rw [conclude, conclude, first.truthy]
          exact .ok (.plain rfl)
        | negate => exact Value.signed_paired true _ first
        | plus => exact Value.signed_paired false _ first
      | cons => cases op <;> exact .ok (.plain rfl)
  | @binary p op left right =>
    have equal : op = .equal ∨ op = .notEqual → Record.Keeps R :=
      fun is => keeps (.here p left right is)
    cases h with
    | nil => exact .ok (.plain rfl)
    | cons first others =>
      cases others with
      | nil =>
        rw [conclude, conclude, first.truthy]
        exact .ok (.plain rfl)
      | cons second rest =>
        cases rest with
        | nil => exact Value.combine_paired g.room equal first second
        | cons => exact .ok (.plain rfl)

theorem eval_paired (pairing : Record.Pairing R) (hs : Value.EntriesPaired R scope scope')
    (parsed : e.Parsed) (keeps : e.Compares → Record.Keeps R) (site : Site) :
    Outcome.Paired (Value.Paired R) (e.eval g scope site) (e.eval g scope' site) := by
  induction hn : sizeOf e using Nat.strong_induction_on generalizing e site with
  | _ n ih =>
    subst hn
    have inside : ∀ part ∈ e.parts, ∀ site,
        Outcome.Paired (Value.Paired R) (part.eval g scope site) (part.eval g scope' site) := by
      intro part hp site
      exact ih _ (sizeOf_lt_of_mem_parts hp) (parsed.part hp) (fun c => keeps (.part hp c)) site rfl
    have depth : Outcome.Paired Eq (checkDepth site e.position) (checkDepth site e.position) :=
      .self fun _ _ => rfl
    rw [eval_eq, eval_eq]
    refine depth.bind fun _ _ _ => ?_
    refine (evalUntil_paired (fun _ _ => decided_paired e) inside .nil).bind fun vs ws values => ?_
    exact conclude_paired pairing hs parsed keeps values

end Expr

/-- What is made of related items one after another, if it is the same for each of them. -/
theorem gather_congr {α β : Type} {R : α → α → Prop} {f f' : α → Except RenderFault (List β)}
    {xs ys : List α} (h : List.Forall₂ R xs ys) (hf : ∀ x y, R x y → f x = f' y) :
    gather f xs = gather f' ys := by
  induction h with
  | nil => rfl
  | cons first _ ih => rw [gather_cons, gather_cons, hf _ _ first, ih]

namespace Node
variable {R : Record → Record → Prop} {g : Globals}

def Follows (R : Record → Record → Prop) (g : Globals) (e : Expr) : Prop :=
  ∀ scope scope' site, Value.EntriesPaired R scope scope' →
    Outcome.Paired (Value.Paired R) (e.eval g scope site) (e.eval g scope' site)

mutual

theorem render_paired (n : Node) {scope scope' : Scope} (h : ∀ e ∈ n.expressions, Follows R g e)
    (hs : Value.EntriesPaired R scope scope') (loops depth : Nat) :
    n.render g scope loops depth = n.render g scope' loops depth := by
  cases n with
  | text | foreign => rfl
  | output p e escape =>
    have value := h e (by simp [expressions]) scope scope' ⟨loops, []⟩ hs
    refine (value.bind fun v w found => ?_).eq
    rw [shown, found.display]
    exact .self fun _ _ => rfl
  | conditional p branches otherwise =>
    rw [expressions, List.forall_mem_append] at h
    rw [render, render, renderBranches_paired branches h.1 hs,
      renderOtherwise_paired otherwise h.2 hs]
  | loop p x collection body =>
    rw [expressions, List.forall_mem_cons] at h
    rw [render, render]
    split
    · have value := h.1 scope scope' ⟨loops, []⟩ hs
      refine (value.bind fun v w found => ?_).eq
      cases found with
      | list items =>
        have each : ∀ v w, Value.Paired R v w →
            renderAll g ((x, v) :: scope) (loops + 1) (depth + 1) body =
              renderAll g ((x, w) :: scope') (loops + 1) (depth + 1) body := by
          intro v w hv
          have bound : Value.EntriesPaired R ((x, v) :: scope) ((x, w) :: scope') :=
            .cons ⟨rfl, hv⟩ hs
          exact renderAll_paired body h.2 bound (loops + 1) (depth + 1)
        dsimp only
        rw [gather_congr items each]
        exact .self fun _ _ => rfl
      | @plain v plain => cases v <;> first | exact .error _ | cases plain
      | pair | mapping | record => exact .error _
    · rfl

theorem renderAll_paired (nodes : List Node) {scope scope' : Scope}
    (h : ∀ e ∈ nodesExpressions nodes, Follows R g e) (hs : Value.EntriesPaired R scope scope')
    (loops depth : Nat) :
    renderAll g scope loops depth nodes = renderAll g scope' loops depth nodes := by
  cases nodes with
  | nil => rfl
  | cons n rest =>
    rw [nodesExpressions, List.forall_mem_append] at h
    rw [renderAll, renderAll, render_paired n h.1 hs, renderAll_paired rest h.2 hs]

theorem renderBranches_paired (branches : List Branch) {scope scope' : Scope}
    (h : ∀ e ∈ branchesExpressions branches, Follows R g e)
    (hs : Value.EntriesPaired R scope scope') (loops depth : Nat) :
    renderBranches g scope loops depth branches = renderBranches g scope' loops depth branches := by
  cases branches with
  | nil => rfl
  | cons b rest =>
    obtain ⟨condition, body⟩ := b
    rw [branchesExpressions, List.forall_mem_append, List.forall_mem_cons] at h
    obtain ⟨⟨hc, hb⟩, hr⟩ := h
    have value := hc scope scope' ⟨loops, []⟩ hs
    rw [renderBranches, renderBranches, renderAll_paired body hb hs,
      renderBranches_paired rest hr hs]
    refine (value.bind fun v w found => ?_).eq
    rw [found.truthy]
    exact .self fun _ _ => rfl

theorem renderOtherwise_paired (otherwise : Option (List Node)) {scope scope' : Scope}
    (h : ∀ e ∈ otherwiseExpressions otherwise, Follows R g e)
    (hs : Value.EntriesPaired R scope scope') (loops depth : Nat) :
    renderOtherwise g scope loops depth otherwise =
      renderOtherwise g scope' loops depth otherwise := by
  cases otherwise with
  | none => rfl
  | some body => exact renderAll_paired body h hs loops depth

end

end Node

def Document.Compares (d : Document) : Prop := ∃ e ∈ d.expressions, e.Compares

/-- A template that compiles makes the same of data side by side. -/
theorem Template.render_paired {R : Record → Record → Prop} {source : String} {t : Template}
    (ht : Document.parse source = .ok t.document) (pairing : Record.Pairing R)
    (keeps : t.document.Compares → Record.Keeps R) {data data' : Option Host}
    {named named' : List (String × Host)} (h : Option.Rel (Host.Paired R) data data')
    (hn : List.Forall₂ (fun a b => a.1 = b.1 ∧ Host.Paired R a.2 b.2) named named') (g : Globals) :
    t.render g data named = t.render g data' named' := by
  have parsed : ∀ e ∈ t.document.expressions, e.Parsed :=
    Node.forall_nodesExpressions fun n hn => (Document.parse_parsed ht n hn).expressions_parsed
  have follows : ∀ e ∈ t.document.expressions, Node.Follows R g e := by
    intro e he scope scope' site hs
    exact Expr.eval_paired pairing hs (parsed e he) (fun compares => keeps ⟨e, he, compares⟩) site
  refine ((Context.build_paired pairing h hn).bind fun scope scope' hs => ?_).eq
  rw [Document.render, Document.pieces, Node.renderAll_paired _ follows hs]
  exact .self fun _ _ => rfl

end Stencil
