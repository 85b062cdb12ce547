import Stencil.Document.Parser
import Stencil.Proofs.Expr.Unplaced

/-! Documents up to positions, finished and on the way. -/
namespace Stencil

namespace Node

mutual

def unplaced : Node → Node
  | text _ s => text 0 s
  | output _ e escape => output 0 e.unplaced escape
  | conditional _ branches otherwise => conditional 0 (branchesUnplaced branches)
    (otherwiseUnplaced otherwise)
  | loop _ x collection body => loop 0 x collection.unplaced (nodesUnplaced body)
  | foreign kind => foreign kind

def nodesUnplaced : List Node → List Node
  | [] => []
  | n :: rest => unplaced n :: nodesUnplaced rest

def branchesUnplaced : List Branch → List Branch
  | [] => []
  | .mk condition body :: rest =>
    .mk condition.unplaced (nodesUnplaced body) :: branchesUnplaced rest

def otherwiseUnplaced : Option (List Node) → Option (List Node)
  | none => none
  | some body => some (nodesUnplaced body)

end

@[simp] theorem nodesUnplaced_append (u v : List Node) :
    nodesUnplaced (u ++ v) = nodesUnplaced u ++ nodesUnplaced v := by
  induction u with
  | nil => rfl
  | cons n u ih => simp [nodesUnplaced, ih]

@[simp] theorem branchesUnplaced_append (u v : List Branch) :
    branchesUnplaced (u ++ v) = branchesUnplaced u ++ branchesUnplaced v := by
  induction u with
  | nil => rfl
  | cons b u ih =>
    obtain ⟨condition, body⟩ := b
    simp [branchesUnplaced, ih]

end Node

def Document.unplaced (d : Document) : Document := ⟨Node.nodesUnplaced d.nodes⟩

def OpenBlock.Head.unplaced : OpenBlock.Head → OpenBlock.Head
  | .branch done condition => .branch (Node.branchesUnplaced done) condition.unplaced
  | .otherwise done => .otherwise (Node.branchesUnplaced done)
  | .loop item collection => .loop item collection.unplaced

theorem OpenBlock.Head.unplaced_branch (done : List Branch) (condition : Expr) :
    (branch done condition).unplaced = .branch (Node.branchesUnplaced done) condition.unplaced :=
  rfl

def OpenBlock.unplaced (block : OpenBlock) : OpenBlock :=
  ⟨.start, block.head.unplaced, Node.nodesUnplaced block.body⟩

theorem OpenBlock.close_unplaced (block : OpenBlock) :
    block.close.unplaced = block.unplaced.close := by
  obtain ⟨place, head, body⟩ := block
  cases head with
  | branch done condition =>
    simp [close, unplaced, Head.unplaced, Node.unplaced, Node.branchesUnplaced,
      Node.otherwiseUnplaced, Location.start]
  | otherwise done =>
    simp [close, unplaced, Head.unplaced, Node.unplaced, Node.otherwiseUnplaced,
      Location.start]
  | loop item collection => simp [close, unplaced, Head.unplaced, Node.unplaced, Location.start]

namespace Draft

def unplaced (d : Draft) : Draft := ⟨d.blocks.map OpenBlock.unplaced, Node.nodesUnplaced d.nodes⟩

theorem add_unplaced (d : Draft) (n : Node) : (d.add n).unplaced = d.unplaced.add n.unplaced := by
  obtain ⟨blocks, nodes⟩ := d
  cases blocks with
  | nil => simp [add, unplaced, Node.nodesUnplaced]
  | cons block blocks => simp [add, unplaced, OpenBlock.unplaced, Node.nodesUnplaced]

end Draft
end Stencil
