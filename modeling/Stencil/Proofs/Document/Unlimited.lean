import Stencil.Proofs.Document.Action
import Stencil.Proofs.Document.Room

/-! Open blocks as if there were no limit to them. Where all tags say something and the blocks are
closed in the end, only the limit can stand against a template. Two drafts that differ in nothing
that can be told from a render go on to do so, whatever stands behind. -/
namespace Stencil
open Outcome

namespace Draft
variable {d d' e : Draft} {a : Action} {p : Part}

def opened (d : Draft) (head : OpenBlock.Head) : Draft := ⟨⟨.start, head, []⟩ :: d.blocks, d.nodes⟩

def step? (d : Draft) : Action → Option Draft
  | .if_ condition => some (d.opened (.branch [] condition))
  | .for_ item collection => some (d.opened (.loop item collection))
  | a => d.act? a

def steps? (d : Draft) : List Action → Option Draft
  | [] => some d
  | a :: rest => (d.step? a).bind (steps? · rest)

theorem steps?_append (d : Draft) (u v : List Action) :
    d.steps? (u ++ v) = (d.steps? u).bind (steps? · v) := by
  induction u generalizing d with
  | nil => rfl
  | cons a u ih => simp [steps?, ih, Option.bind_assoc]

theorem opened_of_push? {head : OpenBlock.Head} (h : d.push? head = some d') :
    d.opened head = d' := by
  rw [push?] at h
  split at h
  · exact Option.some.inj h
  · cases h

theorem step?_of_act? (h : d.act? a = some d') : d.step? a = some d' := by
  cases a with
  | if_ | for_ => exact congrArg some (opened_of_push? h)
  | _ => exact h

theorem steps?_of_run? {actions : List Action} (h : d.run? actions = some d') :
    d.steps? actions = some d' := by
  induction actions generalizing d with
  | nil => exact h
  | cons a rest ih =>
    obtain ⟨e, taken, ran⟩ := Option.bind_eq_some_iff.1 h
    rw [steps?, step?_of_act? taken]
    exact ih ran

/-- A statement that opens a block does so whatever is open already, up to the limit. -/
theorem exists_statement_eq_push {stop : Location} {tokens : List Token}
    (h : empty.statement stop tokens = .ok d') :
    ∃ block, ∀ d : Draft, d.statement stop tokens = d.push block := by
  cases tokens with
  | nil => cases h
  | cons t rest =>
    obtain ⟨kind, text, place, width⟩ := t
    cases kind with
    | keyword word =>
      cases word with
      | if_ =>
        obtain ⟨condition, read, -⟩ := bind_eq_ok_iff.1 h
        refine ⟨⟨place, .branch [] condition, []⟩, fun d => ?_⟩
        rw [statement]
        simp only [read, ok_bind]
      | for_ =>
        obtain ⟨⟨item, more⟩, named, inner⟩ := bind_eq_ok_iff.1 h
        obtain ⟨⟨word, behind⟩, parted, inner⟩ := bind_eq_ok_iff.1 inner
        obtain ⟨collection, read, -⟩ := bind_eq_ok_iff.1 inner
        refine ⟨⟨place, .loop item.text collection, []⟩, fun d => ?_⟩
        rw [statement]
        simp only [named, parted, read, ok_bind]
      | elsif => cases h
      | else_ =>
        obtain ⟨-, -, turned⟩ := bind_eq_ok_iff.1 h
        cases turned
      | end_ =>
        obtain ⟨-, -, popped⟩ := bind_eq_ok_iff.1 h
        cases popped
      | _ => cases h
    | _ => cases h

theorem exists_part_eq_push (h : empty.part p = .ok d') (opens : d'.blocks ≠ []) :
    ∃ block, ∀ d : Draft, d.part p = d.push block := by
  cases p with
  | text place content =>
    cases h
    exact absurd rfl opens
  | tag kind place code =>
    obtain ⟨⟨tokens, stop⟩, scanned, told⟩ := bind_eq_ok_iff.1 h
    cases kind with
    | escaped | raw =>
      obtain ⟨e, -, added⟩ := bind_eq_ok_iff.1 told
      cases added
      exact absurd rfl opens
    | statement =>
      obtain ⟨block, pushed⟩ := exists_statement_eq_push told
      refine ⟨block, fun d => ?_⟩
      rw [part, scanned]
      exact pushed d

def TooDeep (fault : ParseFault) : Prop := ∃ place, fault = .at (.tooDeep blockLimit) place

theorem push_tooDeep {block : OpenBlock} (h : d.push block ≠ .ok ⟨block :: d.blocks, d.nodes⟩) :
    ∃ fault, d.push block = .error fault ∧ TooDeep fault := by
  rw [push] at h ⊢
  split at h
  · exact absurd rfl h
  · rename_i limit
    exact ⟨_, if_neg limit, block.place, rfl⟩

theorem exists_push?_of_step? (taken : d.step? a = some e) (limited : d.act? a = none) :
    ∃ head, ∀ d : Draft, d.act? a = d.push? head := by
  cases a with
  | if_ | for_ => exact ⟨_, fun _ => rfl⟩
  | _ => cases limited.symm.trans taken

/-- A part that says something is taken, or opens one block too many. -/
theorem part_meets (read : Action.ofPart? p = some a) (taken : d.unplaced.step? a = some e) :
    Meets (fun d' => d'.unplaced = e) TooDeep (d.part p) := by
  have told (d : Draft) : (d.part p).toOption.map unplaced = d.unplaced.act? a := by
    rw [part_unplaced, read, Option.bind_some]
  cases acted : d.unplaced.act? a with
  | some found =>
    obtain rfl : found = e := Option.some.inj ((step?_of_act? acted).symm.trans taken)
    obtain ⟨d', part, same⟩ := Option.map_eq_some_iff.1 ((told d).trans acted)
    rw [eq_ok_of_toOption part, meets_ok]
    exact same
  | none =>
    -- an empty draft is below the limit, so it shows which block the part opens
    obtain ⟨head, pushed⟩ := exists_push?_of_step? taken acted
    obtain ⟨d₀, part, same⟩ := Option.map_eq_some_iff.1 ((told empty).trans (pushed empty.unplaced))
    have opens : d₀.blocks ≠ [] := by
      intro none
      rw [unplaced, none] at same
      cases same
    obtain ⟨block, parts⟩ := exists_part_eq_push (eq_ok_of_toOption part) opens
    have limited : d.push block ≠ .ok ⟨block :: d.blocks, d.nodes⟩ := by
      intro open_
      have none := (told d).trans acted
      rw [parts, open_] at none
      cases none
    obtain ⟨fault, failed, deep⟩ := push_tooDeep limited
    rw [parts, failed, meets_error]
    exact deep

end Draft

namespace Document
open Draft

theorem ofPartsCounted_meets {d : Draft} {parts : List Part} {actions : List Action}
    {nodes : List Node} (read : parts.mapM Action.ofPart? = some actions)
    (ran : d.unplaced.steps? actions = some ⟨[], nodes⟩) (count : Nat) :
    Meets (fun doc => doc.unplaced = ⟨nodes⟩) TooDeep (ofPartsCounted d count parts).1 := by
  induction parts generalizing d actions count with
  | nil =>
    cases read
    have finished : d.finish.toOption.map unplaced = some ⟨nodes⟩ := by
      rw [finish_eq, Option.some.inj ran]
      rfl
    obtain ⟨doc, found, same⟩ := Option.map_eq_some_iff.1 finished
    rw [ofPartsCounted, eq_ok_of_toOption found, meets_ok]
    exact same
  | cons p rest ih =>
    obtain ⟨a, others, told, later, rfl⟩ := mapM_cons_eq_some_iff.1 read
    obtain ⟨e, taken, ran⟩ := Option.bind_eq_some_iff.1 ran
    have part := part_meets told taken
    cases hp : d.part p with
    | error fault =>
      rw [hp] at part
      simp only [ofPartsCounted, hp]
      exact part
    | ok d' =>
      rw [hp, meets_ok] at part
      simp only [ofPartsCounted, hp]
      exact ih later (part ▸ ran) _

/-- Where tags say something and close all blocks, a template compiles or has one block too many. -/
theorem parse_meets {source : String} {parts : List Part} {actions : List Action}
    {nodes : List Node} (cut : Part.scan .start source.toList = .ok parts)
    (read : parts.mapM Action.ofPart? = some actions)
    (ran : Draft.empty.steps? actions = some ⟨[], nodes⟩) :
    Meets (fun doc => doc.unplaced = ⟨nodes⟩) TooDeep (parse source) := by
  rw [parse, Part.ofSource, cut]
  exact ofPartsCounted_meets (d := Draft.empty) read ran 0

end Document

inductive OpenBlock.Same : OpenBlock → OpenBlock → Prop where
  | branch {p p' : Location} {done done' : List Branch} (condition : Expr)
      {body body' : List Node} :
      Node.BranchesSame done done' → Node.NodesSame body body' →
        Same ⟨p, .branch done condition, body⟩ ⟨p', .branch done' condition, body'⟩
  | otherwise {p p' : Location} {done done' : List Branch} {body body' : List Node} :
      Node.BranchesSame done done' → Node.NodesSame body body' →
        Same ⟨p, .otherwise done, body⟩ ⟨p', .otherwise done', body'⟩
  | loop {p p' : Location} (item : String) (collection : Expr) {body body' : List Node} :
      Node.NodesSame body body' →
      Same ⟨p, .loop item collection, body⟩ ⟨p', .loop item collection, body'⟩

structure Draft.Same (d d' : Draft) : Prop where
  blocks : List.Forall₂ OpenBlock.Same d.blocks d'.blocks
  nodes : Node.NodesSame d.nodes d'.nodes

namespace OpenBlock
variable {a b : OpenBlock} {n m : Node}

theorem same_self (block : OpenBlock) : Same block block := by
  obtain ⟨place, head, body⟩ := block
  cases head with
  | branch done condition => exact .branch condition (Node.branchesSame done) (Node.nodesSame body)
  | otherwise done => exact .otherwise (Node.branchesSame done) (Node.nodesSame body)
  | loop item collection => exact .loop item collection (Node.nodesSame body)

theorem Same.add (h : Same a b) (hn : Node.NodesSame [n] [m]) :
    Same { a with body := a.body ++ [n] } { b with body := b.body ++ [m] } := by
  cases h with
  | branch condition done body => exact .branch condition done (body.append hn)
  | otherwise done body => exact .otherwise done (body.append hn)
  | loop item collection body => exact .loop item collection (body.append hn)

theorem Same.close (h : Same a b) : Node.NodesSame [a.close] [b.close] := by
  cases h with
  | branch condition done body =>
    exact (done.append (body.branch condition)).conditional Node.otherwiseSame_none _ _
  | otherwise done body => exact done.conditional body.otherwise _ _
  | loop item collection body => exact body.loop _ _ item collection

end OpenBlock

namespace Draft
variable {d d' e : Draft} {a : Action} {n m : Node}

theorem same_self (d : Draft) : d.Same d :=
  ⟨List.forall₂_same.2 fun b _ => b.same_self, Node.nodesSame d.nodes⟩

theorem Same.add (h : d.Same d') (hn : Node.NodesSame [n] [m]) : (d.add n).Same (d'.add m) := by
  obtain ⟨blocks, nodes⟩ := d
  obtain ⟨blocks', nodes'⟩ := d'
  obtain ⟨same, rest⟩ := h
  cases same with
  | nil => exact ⟨.nil, rest.append hn⟩
  | cons first around => exact ⟨.cons (first.add hn) around, rest⟩

theorem Same.opened (h : d.Same d') (head : OpenBlock.Head) :
    (d.opened head).Same (d'.opened head) :=
  ⟨.cons (OpenBlock.same_self _) h.blocks, h.nodes⟩

theorem Same.turn (h : d.Same d') {head : List Branch → OpenBlock.Head}
    (heads : ∀ {done done' : List Branch} (p p' : Location), Node.BranchesSame done done' →
      OpenBlock.Same ⟨p, head done, []⟩ ⟨p', head done', []⟩) (taken : d.turn? head = some e) :
    ∃ e', d'.turn? head = some e' ∧ e.Same e' := by
  obtain ⟨blocks, nodes⟩ := d
  obtain ⟨blocks', nodes'⟩ := d'
  obtain ⟨same, rest⟩ := h
  cases same with
  | nil => cases taken
  | cons first around =>
    cases first with
    | otherwise | loop => cases taken
    | @branch p p' _ _ condition _ _ done body =>
      cases taken
      exact ⟨_, rfl, .cons (heads p p' (done.append (body.branch condition))) around, rest⟩

/-- Drafts that are the same take the same actions, and are the same behind them. -/
theorem Same.step (h : d.Same d') (taken : d.step? a = some e) :
    ∃ e', d'.step? a = some e' ∧ e.Same e' := by
  cases a with
  | text | output =>
    cases taken
    exact ⟨_, rfl, h.add (Node.nodeSame _)⟩
  | if_ | for_ =>
    cases taken
    exact ⟨_, rfl, h.opened _⟩
  | elsif condition =>
    exact h.turn (fun _ _ done => .branch condition done (Node.nodesSame [])) taken
  | else_ => exact h.turn (fun _ _ done => .otherwise done (Node.nodesSame [])) taken
  | end_ =>
    obtain ⟨blocks, nodes⟩ := d
    obtain ⟨blocks', nodes'⟩ := d'
    obtain ⟨same, rest⟩ := h
    cases same with
    | nil => cases taken
    | cons first around =>
      cases taken
      have before : (⟨_, nodes⟩ : Draft).Same ⟨_, nodes'⟩ := ⟨around, rest⟩
      exact ⟨_, rfl, before.add first.close⟩

theorem Same.steps (h : d.Same d') {actions : List Action} (ran : d.steps? actions = some e) :
    ∃ e', d'.steps? actions = some e' ∧ e.Same e' := by
  induction actions generalizing d d' with
  | nil =>
    cases ran
    exact ⟨d', rfl, h⟩
  | cons a rest ih =>
    obtain ⟨next, taken, ran⟩ := Option.bind_eq_some_iff.1 ran
    obtain ⟨next', taken', same⟩ := h.step taken
    obtain ⟨e', ran', done⟩ := ih same ran
    exact ⟨e', by rw [steps?, taken', Option.bind_some, ran'], done⟩

end Draft
end Stencil
