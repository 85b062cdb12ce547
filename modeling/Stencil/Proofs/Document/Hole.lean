import Stencil.Proofs.Document.Alike

/-! Documents with one node left out. Nodes that are rendered alike everywhere can take each other's
place: the documents that come of it are rendered alike. -/
namespace Stencil
open Outcome

namespace Node

/-- A block whose body is left out, and what stands before and after it. -/
inductive Frame where
  | loop (before : List Node) (position : Nat) (item : String) (collection : Expr)
      (after : List Node)
  | branch (before : List Node) (position : Nat) (earlier : List Branch) (condition : Expr)
      (later : List Branch) (otherwise : Option (List Node)) (after : List Node)
  | fallback (before : List Node) (position : Nat) (branches : List Branch) (after : List Node)

def Frame.fill (body : List Node) : Frame → List Node
  | loop before p item collection after => before ++ [.loop p item collection body] ++ after
  | branch before p earlier condition later otherwise after =>
    before ++ [.conditional p (earlier ++ .mk condition body :: later) otherwise] ++ after
  | fallback before p branches after => before ++ [.conditional p branches (some body)] ++ after

inductive Among (n : Node) : List Node → Prop where
  | here {nodes : List Node} (inside : n ∈ nodes) : Among n nodes
  | loop {nodes body : List Node} {p : Nat} {item : String} {collection : Expr}
    (block : .loop p item collection body ∈ nodes) (deeper : Among n body) : Among n nodes
  | branch {nodes body : List Node} {p : Nat} {branches : List Branch} {condition : Expr}
    {otherwise : Option (List Node)} (block : .conditional p branches otherwise ∈ nodes)
    (taken : .mk condition body ∈ branches) (deeper : Among n body) : Among n nodes
  | fallback {nodes body : List Node} {p : Nat} {branches : List Branch}
    (block : .conditional p branches (some body) ∈ nodes) (deeper : Among n body) : Among n nodes

theorem Alike.fill {β : Type} {view : RenderFault → β} {g : Globals} {u v : List Node}
    (h : Alike view g u v) (frame : Frame) : Alike view g (frame.fill u) (frame.fill v) := by
  cases frame with
  | loop before p item collection after => exact (h.loop p item collection).beside before after
  | branch before p earlier condition later otherwise after =>
    exact (h.branch p earlier condition later otherwise).beside before after
  | fallback before p branches after => exact (h.otherwise p branches).beside before after

end Node

/-- A document with one node left out: what stands beside it, and the blocks around it, innermost
first. -/
structure Hole where
  before : List Node
  after : List Node
  frames : List Node.Frame

namespace Hole

def fill (hole : Hole) (n : Node) : Document :=
  ⟨hole.frames.foldl Node.Frame.fill (hole.before ++ [n] ++ hole.after)⟩

/-- Nodes that are alike make documents that are rendered alike. -/
theorem render_fill {β : Type} {view : RenderFault → β} {g : Globals} {n m : Node}
    (h : Node.Alike view g [n] [m]) (hole : Hole) (scope : Scope) :
    bimap view id ((hole.fill n).render g scope) =
      bimap view id ((hole.fill m).render g scope) := by
  have around (u v : List Node) (frames : List Node.Frame) (h : Node.Alike view g u v) :
      Node.Alike view g (frames.foldl Node.Frame.fill u) (frames.foldl Node.Frame.fill v) := by
    induction frames generalizing u v with
    | nil => exact h
    | cons frame frames ih => exact ih _ _ (h.fill frame)
  have pieces := around _ _ hole.frames (h.beside hole.before hole.after) scope 0 0
  rw [Document.render, Document.render, bimap_map, bimap_map]
  exact congrArg (Except.map String.join) pieces

end Hole
end Stencil
