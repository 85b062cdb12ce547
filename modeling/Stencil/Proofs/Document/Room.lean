import Stencil.Proofs.Document.Alike
import Stencil.Proofs.Document.Depth
import Stencil.Proofs.Document.Unplaced

/-! Where there is room for the blocks of a row of nodes, it makes no difference how deep the row
stands. So a conditional may give its last branches to a conditional of their own, one level
deeper. -/
namespace Stencil
open Outcome

namespace Node

def Room (depth nesting : Nat) : Prop := depth + nesting ≤ renderLimit

def NodesSame (u v : List Node) : Prop :=
  ∀ (g : Globals) (scope : Scope) (loops depth depth' : Nat), Room depth (nodesNesting u) →
    Room depth' (nodesNesting v) →
    renderAll g scope loops depth u = renderAll g scope loops depth' v

def BranchesSame (bs cs : List Branch) : Prop :=
  ∀ (g : Globals) (scope : Scope) (loops depth depth' : Nat), Room depth (branchesNesting bs) →
    Room depth' (branchesNesting cs) →
    renderBranches g scope loops depth bs = renderBranches g scope loops depth' cs

def OtherwiseSame (o o' : Option (List Node)) : Prop :=
  ∀ (g : Globals) (scope : Scope) (loops depth depth' : Nat), Room depth (otherwiseNesting o) →
    Room depth' (otherwiseNesting o') →
      renderOtherwise g scope loops depth o = renderOtherwise g scope loops depth' o'

section Room
variable {depth a b : Nat}

theorem room_max_iff : Room depth (max a b) ↔ Room depth a ∧ Room depth b := by
  unfold Room
  omega

theorem room_succ_iff : Room depth (1 + a) ↔ depth < renderLimit ∧ Room (depth + 1) a := by
  unfold Room
  omega

theorem nodesNesting_append (u v : List Node) :
    nodesNesting (u ++ v) = max (nodesNesting u) (nodesNesting v) := by
  induction u with
  | nil => simp [nodesNesting]
  | cons n u ih => rw [List.cons_append, nodesNesting, nodesNesting, ih, Nat.max_assoc]

theorem branchesNesting_append (bs cs : List Branch) :
    branchesNesting (bs ++ cs) = max (branchesNesting bs) (branchesNesting cs) := by
  induction bs with
  | nil => simp [branchesNesting]
  | cons b bs ih =>
    obtain ⟨condition, body⟩ := b
    rw [List.cons_append, branchesNesting, branchesNesting, ih, Nat.max_assoc]

theorem nodesNesting_singleton (n : Node) : nodesNesting [n] = n.nesting := Nat.max_zero _

end Room

theorem renderAll_singleton (g : Globals) (scope : Scope) (loops depth : Nat) (n : Node) :
    renderAll g scope loops depth [n] = n.render g scope loops depth := by
  rw [renderAll]
  cases n.render g scope loops depth <;> simp [renderAll]

/-- The later branches matter only where no earlier one is taken. -/
theorem renderBranches_append (g : Globals) (scope : Scope) (loops depth : Nat)
    (bs cs : List Branch) :
    renderBranches g scope loops depth (bs ++ cs) =
      renderBranches g scope loops depth bs >>= fun taken =>
        match taken with
        | some pieces => .ok (some pieces)
        | none => renderBranches g scope loops depth cs := by
  induction bs with
  | nil => rfl
  | cons b bs ih =>
    obtain ⟨condition, body⟩ := b
    rw [List.cons_append, renderBranches, renderBranches, bind_assoc]
    refine bind_congr fun v => ?_
    split
    · cases renderAll g scope loops depth body <;> rfl
    · exact ih

variable {u u' v v' : List Node} {bs bs' cs cs' : List Branch} {o o' : Option (List Node)}

theorem NodesSame.append (h : NodesSame u v) (h' : NodesSame u' v') :
    NodesSame (u ++ u') (v ++ v') := by
  intro g scope loops depth depth' room room'
  rw [nodesNesting_append, room_max_iff] at room room'
  rw [renderAll_append, renderAll_append, h g scope loops depth depth' room.1 room'.1,
    h' g scope loops depth depth' room.2 room'.2]

theorem BranchesSame.append (h : BranchesSame bs cs) (h' : BranchesSame bs' cs') :
    BranchesSame (bs ++ bs') (cs ++ cs') := by
  intro g scope loops depth depth' room room'
  rw [branchesNesting_append, room_max_iff] at room room'
  rw [renderBranches_append, renderBranches_append, h g scope loops depth depth' room.1 room'.1,
    h' g scope loops depth depth' room.2 room'.2]

theorem NodesSame.branch (h : NodesSame u v) (condition : Expr) :
    BranchesSame [.mk condition u] [.mk condition v] := by
  intro g scope loops depth depth' room room'
  rw [branchesNesting, room_max_iff] at room room'
  rw [renderBranches, renderBranches, h g scope loops depth depth' room.1 room'.1]
  rfl

theorem NodesSame.otherwise (h : NodesSame u v) : OtherwiseSame (some u) (some v) := h

theorem otherwiseSame_none : OtherwiseSame none none := fun _ _ _ _ _ _ _ => rfl

theorem BranchesSame.conditional (h : BranchesSame bs cs) (h' : OtherwiseSame o o') (p p' : Nat) :
    NodesSame [.conditional p bs o] [.conditional p' cs o'] := by
  intro g scope loops depth depth' room room'
  rw [nodesNesting_singleton, nesting, room_succ_iff, room_max_iff] at room room'
  obtain ⟨below, branches, otherwise⟩ := room
  obtain ⟨below', branches', otherwise'⟩ := room'
  rw [renderAll_singleton, renderAll_singleton, render, render, if_pos below, if_pos below',
    h g scope loops _ _ branches branches', h' g scope loops _ _ otherwise otherwise']

theorem NodesSame.loop (h : NodesSame u v) (p p' : Nat) (item : String) (collection : Expr) :
    NodesSame [.loop p item collection u] [.loop p' item collection v] := by
  intro g scope loops depth depth' room room'
  rw [nodesNesting_singleton, nesting, room_succ_iff] at room room'
  have body (x : Value) := h g ((item, x) :: scope) (loops + 1) _ _ room.2 room'.2
  rw [renderAll_singleton, renderAll_singleton, render, render, if_pos room.1, if_pos room'.1]
  simp only [body]

mutual

/-- How deep a node stands makes no difference where there is room for it. -/
theorem nodeSame (n : Node) : NodesSame [n] [n] := by
  cases n with
  | text | output | foreign => exact fun _ _ _ _ _ _ _ => rfl
  | conditional p branches otherwise =>
    exact (branchesSame branches).conditional (otherwiseSame otherwise) p p
  | loop p item collection body => exact (nodesSame body).loop p p item collection

theorem nodesSame (nodes : List Node) : NodesSame nodes nodes := by
  cases nodes with
  | nil => exact fun _ _ _ _ _ _ _ => rfl
  | cons n rest => exact (nodeSame n).append (nodesSame rest)

theorem branchesSame (branches : List Branch) : BranchesSame branches branches := by
  cases branches with
  | nil => exact fun _ _ _ _ _ _ _ => rfl
  | cons b rest =>
    obtain ⟨condition, body⟩ := b
    exact ((nodesSame body).branch condition).append (branchesSame rest)

theorem otherwiseSame (otherwise : Option (List Node)) : OtherwiseSame otherwise otherwise := by
  cases otherwise with
  | none => exact otherwiseSame_none
  | some body => exact (nodesSame body).otherwise

end

/-- The last branches of a conditional in a conditional of their own, under the `else` of the first
ones. -/
theorem nodesSame_nested (bs cs : List Branch) (o : Option (List Node)) (p p' p'' : Nat) :
    NodesSame [.conditional p (bs ++ cs) o]
      [.conditional p' bs (some [.conditional p'' cs o])] := by
  intro g scope loops depth depth' room room'
  rw [nodesNesting_singleton, nesting, room_succ_iff, room_max_iff, branchesNesting_append,
    room_max_iff] at room
  rw [nodesNesting_singleton, nesting, room_succ_iff, room_max_iff, otherwiseNesting,
    nodesNesting_singleton, nesting, room_succ_iff, room_max_iff] at room'
  obtain ⟨below, ⟨first, last⟩, otherwise⟩ := room
  obtain ⟨below', first', below'', last', otherwise'⟩ := room'
  rw [renderAll_singleton, renderAll_singleton, render, render, if_pos below, if_pos below',
    renderBranches_append, branchesSame bs g scope loops _ _ first first', bind_assoc]
  refine bind_congr fun taken => ?_
  cases taken with
  | some pieces => rfl
  | none =>
    rw [renderOtherwise, renderAll_singleton, render, if_pos below'',
      branchesSame cs g scope loops _ _ last last']
    refine bind_congr fun taken => ?_
    cases taken with
    | some pieces => rfl
    | none => exact otherwiseSame o g scope loops _ _ otherwise otherwise'

mutual

theorem nesting_unplaced (n : Node) : n.unplaced.nesting = n.nesting := by
  cases n with
  | text | output | foreign => rfl
  | conditional p branches otherwise =>
    rw [unplaced, nesting, nesting, branchesNesting_unplaced, otherwiseNesting_unplaced]
  | loop p item collection body => rw [unplaced, nesting, nesting, nodesNesting_unplaced]

theorem nodesNesting_unplaced (nodes : List Node) :
    nodesNesting (nodesUnplaced nodes) = nodesNesting nodes := by
  cases nodes with
  | nil => rfl
  | cons n rest =>
    rw [nodesUnplaced, nodesNesting, nodesNesting, nesting_unplaced, nodesNesting_unplaced]

theorem branchesNesting_unplaced (branches : List Branch) :
    branchesNesting (branchesUnplaced branches) = branchesNesting branches := by
  cases branches with
  | nil => rfl
  | cons b rest =>
    obtain ⟨condition, body⟩ := b
    rw [branchesUnplaced, branchesNesting, branchesNesting, nodesNesting_unplaced,
      branchesNesting_unplaced]

theorem otherwiseNesting_unplaced (otherwise : Option (List Node)) :
    otherwiseNesting (otherwiseUnplaced otherwise) = otherwiseNesting otherwise := by
  cases otherwise with
  | none => rfl
  | some body => exact nodesNesting_unplaced body

end

end Node

/-- A template that compiles has room for its blocks at the top. -/
theorem Document.room_of_parse {source : String} {d : Document} (h : parse source = .ok d) :
    Node.Room 0 (Node.nodesNesting d.unplaced.nodes) := by
  have limit : Node.nodesNesting d.nodes ≤ Draft.blockLimit :=
    Node.nodesNesting_le fun n hn => (parse_parsed h n hn).nesting_le
  rw [Node.Room, Document.unplaced, Node.nodesNesting_unplaced, Nat.zero_add]
  exact limit

end Stencil
