import Mathlib
import Stencil.Document.Parser
import Stencil.Document.Render
import Stencil.Proofs.Expr.Names

/-! Free and bound names of a document. The item of a loop is bound in the body of the loop and
nowhere else. A render sees of a scope what the free names stand for, and of a free name what it
stands for. -/
namespace Stencil

namespace Node

mutual

/-- The free names: all variables, but those in the body of a loop that are its item. -/
def free : Node → List String
  | text .. | foreign _ => []
  | output _ e _ => e.names
  | conditional _ branches otherwise => branchesFree branches ++ otherwiseFree otherwise
  | loop _ x collection body => collection.names ++ (nodesFree body).filter (· ≠ x)

def nodesFree : List Node → List String
  | [] => []
  | n :: rest => free n ++ nodesFree rest

def branchesFree : List Branch → List String
  | [] => []
  | .mk condition body :: rest => condition.names ++ (nodesFree body ++ branchesFree rest)

def otherwiseFree : Option (List Node) → List String
  | none => []
  | some body => nodesFree body

end

mutual

def items : Node → List String
  | text .. | output .. | foreign _ => []
  | conditional _ branches otherwise => branchesItems branches ++ otherwiseItems otherwise
  | loop _ x _ body => x :: nodesItems body

def nodesItems : List Node → List String
  | [] => []
  | n :: rest => items n ++ nodesItems rest

def branchesItems : List Branch → List String
  | [] => []
  | .mk _ body :: rest => nodesItems body ++ branchesItems rest

def otherwiseItems : Option (List Node) → List String
  | none => []
  | some body => nodesItems body

end

mutual

/-- The node with other names for its free variables. In the body of a loop the item keeps its
name. -/
def rename (ρ : String → String) : Node → Node
  | text p content => text p content
  | output p e escape => output p (e.rename ρ) escape
  | conditional p branches otherwise =>
    conditional p (branchesRename ρ branches) (otherwiseRename ρ otherwise)
  | loop p x collection body =>
    loop p x (collection.rename ρ) (nodesRename (Function.update ρ x x) body)
  | foreign kind => foreign kind

def nodesRename (ρ : String → String) : List Node → List Node
  | [] => []
  | n :: rest => rename ρ n :: nodesRename ρ rest

def branchesRename (ρ : String → String) : List Branch → List Branch
  | [] => []
  | .mk condition body :: rest =>
    .mk (condition.rename ρ) (nodesRename ρ body) :: branchesRename ρ rest

def otherwiseRename (ρ : String → String) : Option (List Node) → Option (List Node)
  | none => none
  | some body => some (nodesRename ρ body)

end

mutual

@[simp] theorem rename_id (n : Node) : n.rename id = n := by
  cases n with
  | text | foreign => rfl
  | output p e escape => rw [rename, Expr.rename_id]
  | conditional p branches otherwise =>
    rw [rename, branchesRename_id branches, otherwiseRename_id otherwise]
  | loop p x collection body =>
    have kept : Function.update id x x = id := Function.update_eq_self x id
    rw [rename, Expr.rename_id, kept, nodesRename_id body]

@[simp] theorem nodesRename_id (nodes : List Node) : nodesRename id nodes = nodes := by
  cases nodes with
  | nil => rfl
  | cons n rest => rw [nodesRename, rename_id n, nodesRename_id rest]

@[simp] theorem branchesRename_id (branches : List Branch) :
    branchesRename id branches = branches := by
  cases branches with
  | nil => rfl
  | cons b rest =>
    obtain ⟨condition, body⟩ := b
    rw [branchesRename, Expr.rename_id, nodesRename_id body, branchesRename_id rest]

@[simp] theorem otherwiseRename_id (otherwise : Option (List Node)) :
    otherwiseRename id otherwise = otherwise := by
  cases otherwise with
  | none => rfl
  | some body => rw [otherwiseRename, nodesRename_id body]

end

end Node

def Apart (ρ : String → String) (names : List String) : Prop := ∀ x ∈ names, ∀ y, ρ y = x → y = x

theorem apart_append_iff {ρ : String → String} {u v : List String} :
    Apart ρ (u ++ v) ↔ Apart ρ u ∧ Apart ρ v := List.forall_mem_append

theorem Apart.update {ρ : String → String} {names : List String} (h : Apart ρ names) (x : String) :
    Apart (Function.update ρ x x) names := by
  intro w hw y hy
  by_cases same : y = x
  · subst same
    rwa [Function.update_self] at hy
  · rw [Function.update_of_ne same] at hy
    exact h w hw y hy

namespace Scope

/-- Inside a loop the item is what it stands for there, and other names are what they are
outside. -/
theorem Agree.bind {ρ : String → String} {s t : Scope} {names : List String} {x : String}
    (agree : Agree ρ s t (names.filter (· ≠ x))) (apart : ∀ y, ρ y = x → y = x) (v : Value) :
    Agree (Function.update ρ x x) ((x, v) :: s) ((x, v) :: t) names := by
  intro y hy
  by_cases same : y = x
  · subst same
    rw [Function.update_self, Expr.lookup_cons_self, Expr.lookup_cons_self]
  · have outside : y ∈ names.filter (· ≠ x) := List.mem_filter.2 ⟨hy, by simpa using same⟩
    rw [Function.update_of_ne same, Expr.lookup_cons_of_ne (fun new => same (apart y new)),
      Expr.lookup_cons_of_ne same, agree y outside]

end Scope

namespace Node
open Scope (Agree agree_append_iff)
variable {g : Globals}

mutual

/-- Where free names and their new names come to the same, and no item of a loop is the new name of
another, nothing else changes. -/
theorem render_rename {ρ : String → String} {s t : Scope} (n : Node) (agree : Agree ρ s t n.free)
    (apart : Apart ρ n.items) (loops depth : Nat) :
    (n.rename ρ).render g t loops depth = n.render g s loops depth := by
  cases n with
  | text | foreign => rfl
  | output p e escape => rw [rename, render, render, Expr.eval_rename e _ agree]
  | conditional p branches otherwise =>
    obtain ⟨first, second⟩ := agree_append_iff.1 agree
    obtain ⟨apart₁, apart₂⟩ := apart_append_iff.1 apart
    rw [rename, render, render, renderBranches_rename branches first apart₁,
      renderOtherwise_rename otherwise second apart₂]
  | loop p x collection body =>
    obtain ⟨outside, inside⟩ := agree_append_iff.1 agree
    obtain ⟨item, others⟩ : (∀ y, ρ y = x → y = x) ∧ Apart ρ (nodesItems body) :=
      List.forall_mem_cons.1 apart
    have bodies (v : Value) :
        renderAll g ((x, v) :: t) (loops + 1) (depth + 1)
          (nodesRename (Function.update ρ x x) body) =
          renderAll g ((x, v) :: s) (loops + 1) (depth + 1) body :=
      renderAll_rename body (inside.bind item v) (others.update x) _ _
    rw [rename, render, render, Expr.eval_rename collection _ outside]
    simp only [bodies]

theorem renderAll_rename {ρ : String → String} {s t : Scope} (nodes : List Node)
    (agree : Agree ρ s t (nodesFree nodes)) (apart : Apart ρ (nodesItems nodes))
    (loops depth : Nat) :
    renderAll g t loops depth (nodesRename ρ nodes) = renderAll g s loops depth nodes := by
  cases nodes with
  | nil => rfl
  | cons n rest =>
    obtain ⟨first, others⟩ := agree_append_iff.1 agree
    obtain ⟨apart₁, apart₂⟩ := apart_append_iff.1 apart
    rw [nodesRename, renderAll, renderAll, render_rename n first apart₁,
      renderAll_rename rest others apart₂]

theorem renderBranches_rename {ρ : String → String} {s t : Scope} (branches : List Branch)
    (agree : Agree ρ s t (branchesFree branches)) (apart : Apart ρ (branchesItems branches))
    (loops depth : Nat) :
    renderBranches g t loops depth (branchesRename ρ branches) =
      renderBranches g s loops depth branches := by
  cases branches with
  | nil => rfl
  | cons b rest =>
    obtain ⟨condition, body⟩ := b
    obtain ⟨first, others⟩ := agree_append_iff.1 agree
    obtain ⟨second, third⟩ := agree_append_iff.1 others
    obtain ⟨apart₁, apart₂⟩ := apart_append_iff.1 apart
    rw [branchesRename, renderBranches, renderBranches, Expr.eval_rename condition _ first,
      renderAll_rename body second apart₁, renderBranches_rename rest third apart₂]

theorem renderOtherwise_rename {ρ : String → String} {s t : Scope} (otherwise : Option (List Node))
    (agree : Agree ρ s t (otherwiseFree otherwise)) (apart : Apart ρ (otherwiseItems otherwise))
    (loops depth : Nat) :
    renderOtherwise g t loops depth (otherwiseRename ρ otherwise) =
      renderOtherwise g s loops depth otherwise := by
  cases otherwise with
  | none => rfl
  | some body => exact renderAll_rename body agree apart loops depth

end

end Node

namespace Document

def free (d : Document) : List String := Node.nodesFree d.nodes

/-- A render depends on what the free names stand for and on nothing else in its scope: two scopes
that agree on them give the same text or the same fault, and further names change nothing, whatever
else they may name. -/
theorem render_eq_of_free (g : Globals) (d : Document) :
    (∀ s t : Scope, (∀ x ∈ d.free, s.lookup x = t.lookup x) → d.render g s = d.render g t) ∧
      ∀ extra s : Scope, (∀ x ∈ d.free, x ∉ extra.map Prod.fst) →
      d.render g (extra ++ s) = d.render g s := by
  have same (s t : Scope) (h : ∀ x ∈ d.free, s.lookup x = t.lookup x) :
      d.render g s = d.render g t := by
    have agree : Scope.Agree id t s (Node.nodesFree d.nodes) := fun x hx => by
      rw [id, Expr.lookup, Expr.lookup, h x hx]
    have apart : Apart id (Node.nodesItems d.nodes) := fun _ _ _ new => new
    have pieces := Node.renderAll_rename (g := g) d.nodes agree apart 0 0
    rw [Node.nodesRename_id] at pieces
    rw [render, render, Document.pieces, Document.pieces, pieces]
  refine ⟨same, fun extra s unused => same _ _ fun x hx => ?_⟩
  have absent : extra.lookup x = none := by
    refine List.lookup_eq_none_iff.2 fun b hb => ?_
    have other : x ≠ b.1 := fun named => unused x hx (named ▸ List.mem_map_of_mem hb)
    simpa using other
  rw [List.lookup_append, absent, Option.none_or]

/-- Names of a function, of a member and of a loop's item are free to stand for anything. -/
theorem render_eq_of_free_taken :
    ∃ (g : Globals) (d : Document) (extra s : Scope),
      parse "<% for len in xs %><%= len.len %><% end %><%= turbo_head() %>" = .ok d ∧
      d.free = ["xs"] ∧
      extra = [("turbo_head", .int 1), ("len", .null)] ∧
      s = [("xs", .list [.string "ab", .string "c"])] ∧
      (∀ x ∈ d.free, s.lookup x = (s ++ extra).lookup x) ∧ d.render g s = d.render g (s ++ extra) ∧
      (∀ x ∈ d.free, x ∉ extra.map Prod.fst) ∧ d.render g (extra ++ s) = d.render g s := by
  let g : Globals := ⟨CipherKey.derived [], ⟨0, []⟩, "turbo.js", 900⟩
  let d : Document :=
    ⟨[.loop 3 "len" (.name 14 "xs") [.output 19 (.member 27 (.name 23 "len") "len" []) true],
      .output 42 (.call 46 "turbo_head" []) true]⟩
  let extra : Scope := [("turbo_head", .int 1), ("len", .null)]
  let s : Scope := [("xs", .list [.string "ab", .string "c"])]
  have h : parse "<% for len in xs %><%= len.len %><% end %><%= turbo_head() %>" = .ok d := by cbv
  have free : d.free = ["xs"] := rfl
  have agree : ∀ x ∈ d.free, s.lookup x = (s ++ extra).lookup x := by
    intro x hx
    obtain rfl := List.mem_singleton.1 (free ▸ hx)
    rfl
  have unused : ∀ x ∈ d.free, x ∉ extra.map Prod.fst := by
    rw [free]
    decide
  exact ⟨g, d, extra, s, h, free, rfl, rfl, agree, (render_eq_of_free g d).1 _ _ agree, unused,
    (render_eq_of_free g d).2 extra s unused⟩

end Document
end Stencil
