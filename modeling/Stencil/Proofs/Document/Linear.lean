import Stencil.Proofs.Document.Action
import Stencil.Proofs.Document.Depth
import Stencil.Proofs.Part.Scan
import Stencil.Proofs.Token.Source

/-! A document as the row of its texts and tags. The blocks of a draft undo this: they put the row
together to the document again, and nothing else can be put together to it. -/
namespace Stencil

def Action.condition (first : Bool) (e : Expr) : Action := if first then .if_ e else .elsif e

def Action.unplaced : Action → Action
  | text content => text content
  | output e escape => output e.unplaced escape
  | if_ condition => if_ condition.unplaced
  | elsif condition => elsif condition.unplaced
  | else_ => else_
  | for_ item collection => for_ item collection.unplaced
  | end_ => end_

theorem Action.condition_unplaced (first : Bool) (e : Expr) :
    (condition first e).unplaced = condition first e.unplaced := by
  cases first <;> rfl

namespace Node

mutual

def actions : Node → List Action
  | text _ content => [.text content]
  | output _ e escape => [.output e escape]
  | conditional _ branches otherwise => branchesActions true branches ++
    (otherwiseActions otherwise ++ [.end_])
  | loop _ x collection body => .for_ x collection :: (nodesActions body ++ [.end_])
  | foreign _ => []

def nodesActions : List Node → List Action
  | [] => []
  | n :: rest => actions n ++ nodesActions rest

def branchesActions (first : Bool) : List Branch → List Action
  | [] => []
  | .mk condition body :: rest => .condition first condition ::
    (nodesActions body ++ branchesActions false rest)

def otherwiseActions : Option (List Node) → List Action
  | none => []
  | some body => .else_ :: nodesActions body

end

def isText : Node → Bool
  | text .. => true
  | _ => false

mutual

/-- A node that can be written: literal texts apart from each other, at least one branch to a
conditional, and items of loops with plain names. -/
def Writable : Node → Prop
  | text _ content => Part.Literal content.toList
  | output .. => True
  | conditional _ branches otherwise => branches ≠ [] ∧ BranchesWritable branches ∧
    OtherwiseWritable otherwise
  | loop _ x _ body => (Token.IsName x.toList ∧ Keyword.ofText? x = none) ∧ NodesWritable body
  | foreign _ => False

def NodesWritable : List Node → Prop
  | [] => True
  | n :: rest =>
    Writable n ∧ (n.isText = true → ∀ m ∈ rest.head?, m.isText = false) ∧ NodesWritable rest

def BranchesWritable : List Branch → Prop
  | [] => True
  | .mk _ body :: rest => NodesWritable body ∧ BranchesWritable rest

def OtherwiseWritable : Option (List Node) → Prop
  | none => True
  | some body => NodesWritable body

end

@[simp] theorem nodesActions_append (u v : List Node) :
    nodesActions (u ++ v) = nodesActions u ++ nodesActions v := by
  induction u with
  | nil => rfl
  | cons n u ih => simp [nodesActions, ih]

theorem branchesActions_append (first : Bool) (u v : List Branch) :
    branchesActions first (u ++ v) =
      branchesActions first u ++ branchesActions (first && u.isEmpty) v := by
  induction u generalizing first with
  | nil => simp [branchesActions]
  | cons b u ih =>
    obtain ⟨condition, body⟩ := b
    simp [branchesActions, ih]

mutual

theorem actions_unplaced (n : Node) : n.unplaced.actions = n.actions.map Action.unplaced := by
  cases n with
  | text | output | foreign => rfl
  | conditional p branches otherwise =>
    rw [unplaced, actions, actions, branchesActions_unplaced true branches,
      otherwiseActions_unplaced otherwise]
    simp [Action.unplaced]
  | loop p x collection body =>
    rw [unplaced, actions, actions, nodesActions_unplaced body]
    simp [Action.unplaced]

theorem nodesActions_unplaced (nodes : List Node) :
    nodesActions (nodesUnplaced nodes) = (nodesActions nodes).map Action.unplaced := by
  cases nodes with
  | nil => rfl
  | cons n rest =>
    rw [nodesUnplaced, nodesActions, nodesActions, actions_unplaced n,
      nodesActions_unplaced rest, List.map_append]

theorem branchesActions_unplaced (first : Bool) (branches : List Branch) :
    branchesActions first (branchesUnplaced branches) =
      (branchesActions first branches).map Action.unplaced := by
  cases branches with
  | nil => rfl
  | cons b rest =>
    obtain ⟨condition, body⟩ := b
    rw [branchesUnplaced, branchesActions, branchesActions, nodesActions_unplaced body,
      branchesActions_unplaced false rest]
    simp [Action.condition_unplaced]

theorem otherwiseActions_unplaced (otherwise : Option (List Node)) :
    otherwiseActions (otherwiseUnplaced otherwise) =
      (otherwiseActions otherwise).map Action.unplaced := by
  cases otherwise with
  | none => rfl
  | some body =>
    rw [otherwiseUnplaced, otherwiseActions, otherwiseActions, nodesActions_unplaced body]
    rfl

end

end Node

open Node (nodesActions branchesActions otherwiseActions)

def OpenBlock.Head.actions : OpenBlock.Head → List Action
  | .branch done condition => branchesActions true done ++ [.condition done.isEmpty condition]
  | .otherwise done => branchesActions true done ++ [.else_]
  | .loop item collection => [.for_ item collection]

theorem OpenBlock.Head.actions_branch (done : List Branch) (condition : Expr) :
    (branch done condition).actions = branchesActions true done ++
      [.condition done.isEmpty condition] := rfl

def OpenBlock.actions (block : OpenBlock) : List Action :=
  block.head.actions ++ nodesActions block.body

theorem OpenBlock.actions_close (block : OpenBlock) :
    block.close.actions = block.actions ++ [.end_] := by
  obtain ⟨place, head, body⟩ := block
  cases head with
  | branch done condition =>
    simp [close, actions, Head.actions, Node.actions, Node.branchesActions_append, branchesActions,
      otherwiseActions]
  | otherwise done => simp [close, actions, Head.actions, Node.actions, otherwiseActions]
  | loop item collection => simp [close, actions, Head.actions, Node.actions]

namespace Draft

/-- All that a draft has taken: the blocks stand innermost first, so their part is turned around. -/
def actions (d : Draft) : List Action :=
  nodesActions d.nodes ++ d.blocks.reverse.flatMap OpenBlock.actions

theorem actions_add (d : Draft) (n : Node) : (d.add n).actions = d.actions ++ n.actions := by
  obtain ⟨blocks, nodes⟩ := d
  cases blocks with
  | nil => simp [add, actions, nodesActions]
  | cons block blocks => simp [add, actions, OpenBlock.actions, nodesActions]

theorem actions_push? {d d' : Draft} {head : OpenBlock.Head} (h : d.push? head = some d') :
    d'.actions = d.actions ++ head.actions := by
  rw [push?] at h
  split at h
  · cases h
    simp [actions, OpenBlock.actions, nodesActions]
  · cases h

theorem actions_turn? {d d' : Draft} (head : List Branch → OpenBlock.Head) {a : Action}
    (hhead : ∀ done, done ≠ [] → (head done).actions = branchesActions true done ++ [a])
    (h : d.turn? head = some d') :
    d'.actions = d.actions ++ [a] := by
  obtain ⟨blocks, nodes⟩ := d
  cases blocks with
  | nil => cases h
  | cons block around =>
    obtain ⟨place, inner, body⟩ := block
    cases inner with
    | branch done condition =>
      cases h
      simp [actions, OpenBlock.actions, OpenBlock.Head.actions_branch, nodesActions, hhead,
        Node.branchesActions_append, branchesActions]
    | otherwise | loop => cases h

theorem actions_pop? {d d' : Draft} (h : d.pop? = some d') : d'.actions = d.actions ++ [.end_] := by
  obtain ⟨blocks, nodes⟩ := d
  cases blocks with
  | nil => cases h
  | cons block around =>
    cases h
    rw [actions_add, OpenBlock.actions_close]
    simp [actions]

/-- A draft takes exactly one action more with each step. -/
theorem actions_act? {d d' : Draft} {a : Action} (h : d.act? a = some d') :
    d'.actions = d.actions ++ [a] := by
  cases a with
  | text content =>
    cases h
    exact actions_add ..
  | output e escape =>
    cases h
    exact actions_add ..
  | if_ condition => exact actions_push? h
  | for_ item collection => exact actions_push? h
  | elsif condition =>
    refine actions_turn? (.branch · condition) (fun done hne => ?_) h
    simp [OpenBlock.Head.actions, Action.condition, hne]
  | else_ => exact actions_turn? .otherwise (fun done _ => rfl) h
  | end_ => exact actions_pop? h

theorem actions_run? {d d' : Draft} {as : List Action} (h : d.run? as = some d') :
    d'.actions = d.actions ++ as := by
  induction as generalizing d with
  | nil =>
    cases h
    simp
  | cons a as ih =>
    obtain ⟨d₁, step, run⟩ := Option.bind_eq_some_iff.1 h
    rw [ih run, actions_act? step, List.append_assoc]
    rfl

/-- What the blocks put together is the row of the document. -/
theorem nodesActions_of_run? {as : List Action} {nodes : List Node}
    (h : empty.run? as = some ⟨[], nodes⟩) :
    nodesActions nodes = as := by
  simpa [actions, empty, nodesActions] using actions_run? h

def addAll (d : Draft) (nodes : List Node) : Draft := nodes.foldl add d

theorem addAll_open (block : OpenBlock) (around : List OpenBlock) (outer nodes : List Node) :
    addAll ⟨block :: around, outer⟩ nodes =
      ⟨{ block with body := block.body ++ nodes } :: around, outer⟩ := by
  induction nodes generalizing block with
  | nil => simp [addAll]
  | cons n nodes ih =>
    have step : addAll ⟨block :: around, outer⟩ (n :: nodes) =
        addAll ⟨{ block with body := block.body ++ [n] } :: around, outer⟩ nodes := rfl
    rw [step, ih]
    simp

theorem addAll_empty (nodes : List Node) : addAll empty nodes = ⟨[], nodes⟩ := by
  have all (outer nodes : List Node) : addAll ⟨[], outer⟩ nodes = ⟨[], outer ++ nodes⟩ := by
    induction nodes generalizing outer with
    | nil => simp [addAll]
    | cons n nodes ih =>
      have step : addAll ⟨[], outer⟩ (n :: nodes) = addAll ⟨[], outer ++ [n]⟩ nodes := rfl
      rw [step, ih]
      simp
  exact all [] nodes

theorem push?_of_lt {d : Draft} (h : d.blocks.length < blockLimit) (head : OpenBlock.Head) :
    d.push? head = some ⟨⟨.start, head, []⟩ :: d.blocks, d.nodes⟩ := if_pos h

open Node (Writable NodesWritable BranchesWritable OtherwiseWritable nesting nodesNesting
  branchesNesting otherwiseNesting nodesUnplaced branchesUnplaced otherwiseUnplaced)

mutual

/-- The row of a node adds the node, where its blocks can still be opened. -/
theorem run?_node {n : Node} (h : n.Writable) (d : Draft)
    (hd : d.blocks.length + n.nesting ≤ blockLimit) :
    d.run? n.unplaced.actions = some (d.add n.unplaced) := by
  cases n with
  | text p content => rfl
  | output p e escape => rfl
  | foreign kind => exact h.elim
  | loop p x collection body =>
    rw [nesting] at hd
    rw [Node.unplaced, Node.actions, run?, act?, push?_of_lt (by omega), Option.bind_some,
      run?_append, run?_nodes h.2 _ (by simp only [List.length_cons]; omega), Option.bind_some,
        addAll_open]
    rfl
  | conditional p branches otherwise =>
    obtain ⟨hne, hbranches, hotherwise⟩ := h
    cases branches with
    | nil => exact absurd rfl hne
    | cons b more =>
      obtain ⟨c, body⟩ := b
      rw [nesting, branchesNesting] at hd
      obtain ⟨done, c', body', whole, run⟩ :=
        run?_branches hbranches.2 [] c.unplaced (nodesUnplaced body) d.blocks d.nodes
        (by omega) (otherwiseActions (otherwiseUnplaced otherwise) ++ [.end_])
      rw [Node.unplaced, Node.actions, branchesUnplaced, branchesActions, Action.condition,
        if_pos rfl, List.cons_append, List.append_assoc, run?, act?, push?_of_lt (by omega),
        Option.bind_some, run?_append,
        run?_nodes hbranches.1 _ (by simp only [List.length_cons]; omega),
        Option.bind_some, addAll_open, List.nil_append, run]
      rw [List.nil_append] at whole
      cases otherwise with
      | none =>
        rw [← whole]
        rfl
      | some other =>
        rw [otherwiseNesting] at hd
        rw [otherwiseUnplaced, otherwiseActions, List.cons_append, run?, act?, turn?,
          Option.bind_some, run?_append,
          run?_nodes hotherwise _ (by simp only [List.length_cons]; omega),
          Option.bind_some, addAll_open, whole]
        rfl

theorem run?_nodes {nodes : List Node} (h : NodesWritable nodes) (d : Draft)
    (hd : d.blocks.length + nodesNesting nodes ≤ blockLimit) :
    d.run? (nodesActions (nodesUnplaced nodes)) = some (d.addAll (nodesUnplaced nodes)) := by
  cases nodes with
  | nil => rfl
  | cons n rest =>
    rw [nodesNesting] at hd
    have same : (d.add n.unplaced).blocks.length = d.blocks.length := by
      unfold add
      split <;> simp_all
    rw [nodesUnplaced, nodesActions, run?_append, run?_node h.1 d (by omega), Option.bind_some,
      run?_nodes h.2.2 _ (by rw [same]; omega)]
    rfl

/-- Further branches are taken one by one; the last of them stays open. -/
theorem run?_branches {branches : List Branch} (h : BranchesWritable branches) (done : List Branch)
    (c : Expr)
    (body : List Node) (around : List OpenBlock) (outer : List Node)
    (hd : around.length + 1 + branchesNesting branches ≤ blockLimit) (rest : List Action) :
    ∃ done' c' body', done' ++ [.mk c' body'] = done ++ .mk c body :: branchesUnplaced branches ∧
      run? ⟨⟨.start, .branch done c, body⟩ :: around, outer⟩
          (branchesActions false (branchesUnplaced branches) ++ rest) =
        run? ⟨⟨.start, .branch done' c', body'⟩ :: around, outer⟩ rest := by
  cases branches with
  | nil => exact ⟨done, c, body, rfl, rfl⟩
  | cons b more =>
    obtain ⟨c₁, body₁⟩ := b
    rw [branchesNesting] at hd
    obtain ⟨done', c', body', whole, run⟩ :=
      run?_branches h.2 (done ++ [.mk c body]) c₁.unplaced (nodesUnplaced body₁)
      around outer (by omega) rest
    refine ⟨done', c', body', by rw [whole, branchesUnplaced]; simp, ?_⟩
    rw [branchesUnplaced, branchesActions, Action.condition, if_neg (by simp), List.cons_append,
      List.append_assoc, run?, act?, turn?, Option.bind_some, run?_append,
      run?_nodes h.1 _ (by simp only [List.length_cons]; omega),
      Option.bind_some, addAll_open, List.nil_append, run]

end

/-- The blocks put the row of a document together to that document. -/
theorem run?_nodesActions {nodes : List Node} (h : NodesWritable nodes)
    (hd : nodesNesting nodes ≤ blockLimit) :
    empty.run? (nodesActions (nodesUnplaced nodes)) = some ⟨[], nodesUnplaced nodes⟩ := by
  rw [run?_nodes h empty (by simpa [empty] using hd), addAll_empty]

end Draft
end Stencil
