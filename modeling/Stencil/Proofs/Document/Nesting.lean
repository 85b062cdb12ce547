import Stencil.Proofs.Document.Linear

/-! Which rows of texts and tags are well nested. For the blocks of a draft only the kinds of the
open blocks count, so a row whose tags all say something is taken exactly if it is well nested. -/
namespace Stencil
open Outcome

inductive Mark where
  | text (content : String)
  | tag (kind : TagKind) (word : Option Keyword)
  deriving DecidableEq, Repr

namespace Mark

abbrev statement (word : Keyword) : Mark := tag .statement (some word)

abbrev output (escape : Bool) : Mark := tag (if escape then .escaped else .raw) none

def branches (word : Keyword) : List (List Mark) → List Mark
  | [] => []
  | body :: rest => statement word :: (body ++ branches .elsif rest)

/-- Rows whose blocks are closed and lie in one another at most `n` deep. -/
inductive WellNested : Nat → List Mark → Prop where
  | nil (n) : WellNested n []
  | text {n rest} (content) : WellNested n rest → WellNested n (text content :: rest)
  | output {n rest} (escape) : WellNested n rest → WellNested n (output escape :: rest)
  | loop {n body rest} : WellNested n body → WellNested (n + 1) rest →
      WellNested (n + 1) (statement .for_ :: (body ++ statement .end_ :: rest))
  | conditional {n rest} (bodies : List (List Mark)) :
      bodies ≠ [] → (∀ body ∈ bodies, WellNested n body) →
      WellNested (n + 1) rest → WellNested (n + 1) (branches .if_ bodies ++ statement .end_ :: rest)
  | otherwise {n other rest} (bodies : List (List Mark)) : bodies ≠ [] →
    (∀ body ∈ bodies, WellNested n body) →
      WellNested n other → WellNested (n + 1) rest →
      WellNested (n + 1) (branches .if_ bodies ++ statement .else_ ::
        (other ++ statement .end_ :: rest))

end Mark

namespace Token

def Kind.keyword? : Kind → Option Keyword
  | .keyword word => some word
  | _ => none

def leading? : List Char → Option Keyword
  | [] => none
  | c :: rest =>
    if isSpace c then leading? rest
    else
      match lexeme false c rest with
      | .ok l => l.kind.keyword?
      | .error _ => none

theorem leading?_of_scan {place stop : Location} {code : List Char} {tokens : List Token}
    (h : scan false place code = .ok (tokens, stop)) :
    leading? code = tokens.head?.bind fun t => t.kind.keyword? := by
  induction code generalizing place with
  | nil =>
    rw [scan] at h
    cases h
    rfl
  | cons c rest ih =>
    rw [scan] at h
    rw [leading?]
    split at h
    · rename_i space
      rw [if_pos space]
      exact ih h
    · rename_i space
      rw [if_neg space]
      split at h
      · cases h
      · split at h
        · cases h
        · cases h
          simp_all

theorem leading?_of_scanned {code : List Char} {tokens : List Token}
    (h : scanned false code = .ok tokens) :
    leading? code = tokens.head?.bind fun t => t.kind.keyword? := by
  obtain ⟨found, stop, hscan, rfl⟩ := scanned_eq_ok .start h
  rw [leading?_of_scan hscan]
  cases found <;> rfl

end Token

def Part.mark : Part → Mark
  | .text _ content => .text content
  | .tag kind _ code => .tag kind (if kind = .statement then Token.leading? code.toList else none)

namespace Action

def mark : Action → Mark
  | text content => .text content
  | output _ escape => .output escape
  | if_ _ => .statement .if_
  | elsif _ => .statement .elsif
  | else_ => .statement .else_
  | for_ _ _ => .statement .for_
  | end_ => .statement .end_

@[simp] theorem mark_unplaced (a : Action) : a.unplaced.mark = a.mark := by cases a <;> rfl

theorem mark_condition (first : Bool) (e : Expr) :
    (condition first e).mark = .statement (if first then .if_ else .elsif) := by
  cases first <;> rfl

theorem mark_of_ofTokens? {tokens : List Token} {a : Action} (h : ofTokens? tokens = some a) :
    a.mark = .tag .statement (tokens.head?.bind fun t => t.kind.keyword?) := by
  cases tokens with
  | nil => cases h
  | cons t rest =>
    obtain ⟨kind, text, place, width⟩ := t
    cases kind with
    | keyword word =>
      cases word with
      | if_ =>
        obtain ⟨c, -, rfl⟩ := Option.map_eq_some_iff.1 h
        rfl
      | elsif =>
        obtain ⟨c, -, rfl⟩ := Option.map_eq_some_iff.1 h
        rfl
      | else_ =>
        obtain ⟨-, -, rfl⟩ := Option.map_eq_some_iff.1 h
        rfl
      | end_ =>
        obtain ⟨-, -, rfl⟩ := Option.map_eq_some_iff.1 h
        rfl
      | for_ =>
        simp only [ofTokens?, Option.bind_eq_bind, Option.bind_eq_some_iff, Option.pure_def,
          Option.some.injEq] at h
        obtain ⟨-, -, -, -, -, -, rfl⟩ := h
        rfl
      | in_ | true | false | nil => cases h
    | _ => cases h

/-- What a part says shows at its first word. -/
theorem mark_of_ofPart? {p : Part} {a : Action} (h : ofPart? p = some a) : p.mark = a.mark := by
  cases p with
  | text place content =>
    cases h
    rfl
  | tag kind place code =>
    simp only [ofPart?, Option.bind_eq_bind, Option.bind_eq_some_iff] at h
    obtain ⟨tokens, hscan, told⟩ := h
    have scanned := eq_ok_of_toOption hscan
    cases kind with
    | statement =>
      rw [mark_of_ofTokens? told, Part.mark, if_pos rfl, Token.leading?_of_scanned scanned]
    | escaped =>
      obtain ⟨e, -, rfl⟩ := Option.map_eq_some_iff.1 told
      rfl
    | raw =>
      obtain ⟨e, -, rfl⟩ := Option.map_eq_some_iff.1 told
      rfl

theorem marks_of_mapM {parts : List Part} {as : List Action} (h : parts.mapM ofPart? = some as) :
    parts.map Part.mark = as.map mark := by
  induction parts generalizing as with
  | nil =>
    cases h
    rfl
  | cons p rest ih =>
    obtain ⟨a, others, first, told, rfl⟩ := mapM_cons_eq_some_iff.1 h
    rw [List.map_cons, List.map_cons, mark_of_ofPart? first, ih told]

end Action

/-- The kind of an open block is all that the next tag depends on. -/
inductive Shape where
  | branch | otherwise | loop
  deriving DecidableEq, Repr

namespace Shape

def step (open_ : List Shape) : Mark → Option (List Shape)
  | .text _ => some open_
  | .tag .escaped _ => some open_
  | .tag .raw _ => some open_
  | .tag .statement (some .if_) =>
    if open_.length < Draft.blockLimit then some (branch :: open_) else none
  | .tag .statement (some .for_) =>
    if open_.length < Draft.blockLimit then some (loop :: open_) else none
  | .tag .statement (some .elsif) =>
    match open_ with
    | branch :: around => some (branch :: around)
    | _ => none
  | .tag .statement (some .else_) =>
    match open_ with
    | branch :: around => some (otherwise :: around)
    | _ => none
  | .tag .statement (some .end_) =>
    match open_ with
    | _ :: around => some around
    | [] => none
  | .tag .statement _ => none

def run (open_ : List Shape) : List Mark → Option (List Shape)
  | [] => some open_
  | m :: rest => (step open_ m).bind (run · rest)

end Shape

def OpenBlock.shape (block : OpenBlock) : Shape :=
  match block.head with
  | .branch .. => .branch
  | .otherwise _ => .otherwise
  | .loop .. => .loop

namespace Draft

def shape (d : Draft) : List Shape := d.blocks.map OpenBlock.shape

theorem shape_add (d : Draft) (n : Node) : (d.add n).shape = d.shape := by
  obtain ⟨blocks, nodes⟩ := d
  cases blocks <;> rfl

theorem shape_push? (d : Draft) (head : OpenBlock.Head) :
    (d.push? head).map shape =
      if d.shape.length < blockLimit then some (OpenBlock.shape ⟨.start, head, []⟩ :: d.shape)
      else none := by
  simp only [push?, shape, List.length_map]
  split <;> rfl

theorem shape_act? (d : Draft) (a : Action) : (d.act? a).map shape = Shape.step d.shape a.mark := by
  cases a with
  | text content => exact congrArg some (shape_add ..)
  | output e escape =>
    rw [act?, Option.map_some, shape_add]
    cases escape <;> rfl
  | if_ condition => exact shape_push? ..
  | for_ item collection => exact shape_push? ..
  | elsif condition =>
    obtain ⟨blocks, nodes⟩ := d
    cases blocks with
    | nil => rfl
    | cons block around =>
      obtain ⟨place, head, body⟩ := block
      cases head <;> rfl
  | else_ =>
    obtain ⟨blocks, nodes⟩ := d
    cases blocks with
    | nil => rfl
    | cons block around =>
      obtain ⟨place, head, body⟩ := block
      cases head <;> rfl
  | end_ =>
    obtain ⟨blocks, nodes⟩ := d
    cases blocks with
    | nil => rfl
    | cons block around =>
      rw [act?, pop?, Option.map_some, shape_add]
      rfl

theorem shape_run? (d : Draft) (as : List Action) :
    (d.run? as).map shape = Shape.run d.shape (as.map Action.mark) := by
  induction as generalizing d with
  | nil => rfl
  | cons a as ih =>
    have step := d.shape_act? a
    rw [run?, List.map_cons, Shape.run, ← step]
    cases d.act? a with
    | none => rfl
    | some d' => exact ih d'

end Draft

open Mark (statement WellNested)

namespace Shape

theorem step_if {s : List Shape} (h : s.length < Draft.blockLimit) :
    step s (statement .if_) = some (branch :: s) := if_pos h

theorem step_for {s : List Shape} (h : s.length < Draft.blockLimit) :
    step s (statement .for_) = some (loop :: s) := if_pos h

/-- Further branches, each closed in itself, leave the branch open. -/
theorem run_branches {s : List Shape} {bodies : List (List Mark)}
    (h : ∀ body ∈ bodies, ∀ rest, run (branch :: s) (body ++ rest) = run (branch :: s) rest)
    (rest : List Mark) :
    run (branch :: s) (Mark.branches .elsif bodies ++ rest) = run (branch :: s) rest := by
  induction bodies with
  | nil => rfl
  | cons body bodies ih =>
    obtain ⟨first, others⟩ := List.forall_mem_cons.1 h
    rw [Mark.branches, List.cons_append, List.append_assoc, run, step, Option.bind_some, first,
      ih others]

theorem run_if {s : List Shape} (hs : s.length < Draft.blockLimit) {bodies : List (List Mark)}
    (hne : bodies ≠ [])
    (h : ∀ body ∈ bodies, ∀ rest, run (branch :: s) (body ++ rest) = run (branch :: s) rest)
    (rest : List Mark) :
    run s (Mark.branches .if_ bodies ++ rest) = run (branch :: s) rest := by
  cases bodies with
  | nil => exact absurd rfl hne
  | cons body bodies =>
    obtain ⟨first, others⟩ := List.forall_mem_cons.1 h
    rw [Mark.branches, List.cons_append, List.append_assoc, run, step_if hs,
      Option.bind_some, first, run_branches others]

/-- A well nested row is taken and leaves the open blocks as they were. -/
theorem run_of_wellNested {n : Nat} {ms : List Mark} (h : WellNested n ms) {s : List Shape}
    (hs : s.length + n ≤ Draft.blockLimit) (rest : List Mark) :
    run s (ms ++ rest) = run s rest := by
  induction h generalizing s rest with
  | nil => rfl
  | text content _ ih => exact ih hs rest
  | output escape _ ih =>
    rw [List.cons_append, run]
    cases escape <;> exact ih hs rest
  | loop _ _ ihBody ihRest =>
    rw [List.cons_append, List.append_assoc, run, step_for (by omega), Option.bind_some,
      ihBody (by simp only [List.length_cons]; omega), List.cons_append, run, step,
      Option.bind_some, ihRest hs]
  | conditional bodies hne _ _ ihBodies ihRest =>
    rw [List.append_assoc, run_if (by omega) hne
      (fun body hb rest => ihBodies body hb (by simp only [List.length_cons]; omega) rest),
      List.cons_append, run, step,
      Option.bind_some, ihRest hs]
  | otherwise bodies hne _ _ _ ihBodies ihOther ihRest =>
    rw [List.append_assoc, run_if (by omega) hne
      (fun body hb rest => ihBodies body hb (by simp only [List.length_cons]; omega) rest),
      List.cons_append, run, step,
      Option.bind_some, List.append_assoc, ihOther (by simp only [List.length_cons]; omega),
      List.cons_append, run, step,
      Option.bind_some, ihRest hs]

end Shape

namespace Node

def marks (nodes : List Node) : List Mark := (nodesActions nodes).map Action.mark

theorem marks_unplaced (nodes : List Node) : marks (nodesUnplaced nodes) = marks nodes := by
  rw [marks, nodesActions_unplaced, List.map_map]
  exact List.map_congr_left fun a _ => a.mark_unplaced

theorem marks_branches (first : Bool) (branches : List Branch) :
    (branchesActions first branches).map Action.mark =
    Mark.branches (if first then .if_ else .elsif) (branches.map fun b => marks b.body) := by
  induction branches generalizing first with
  | nil => rfl
  | cons b rest ih =>
    obtain ⟨condition, body⟩ := b
    simp only [branchesActions, List.map_cons, List.map_append, Action.mark_condition, ih,
      Mark.branches, marks, Branch.body_mk, Bool.false_eq_true, if_false]

theorem wellNested_nodes {n : Nat} {nodes : List Node}
    (h : ∀ node ∈ nodes, ∀ rest, WellNested n rest →
      WellNested n (node.actions.map Action.mark ++ rest)) :
    WellNested n (marks nodes) := by
  induction nodes with
  | nil => exact .nil n
  | cons node nodes ih =>
    obtain ⟨first, others⟩ := List.forall_mem_cons.1 h
    rw [marks, nodesActions, List.map_append]
    exact first _ (ih others)

/-- Nodes of a template are well nested, as deep as the limit allows below them. -/
theorem Parsed.wellNested {k : Nat} {node : Node} (h : node.Parsed k) {rest : List Mark}
    (hr : WellNested (Draft.blockLimit - k) rest) :
    WellNested (Draft.blockLimit - k) (node.actions.map Action.mark ++ rest) := by
  induction h generalizing rest with
  | text k p content => exact .text content hr
  | output k p escape _ => exact .output escape hr
  | @conditional k p branches otherwise limit hne _ _ _ ihBodies ihOther =>
    obtain ⟨m, hm⟩ : ∃ m, Draft.blockLimit - k = m + 1 := ⟨Draft.blockLimit - (k + 1), by omega⟩
    obtain rfl : m = Draft.blockLimit - (k + 1) := by omega
    have bodies : ∀ body ∈ branches.map fun b => marks b.body,
      WellNested (Draft.blockLimit - (k + 1)) body := by
      intro body hb
      obtain ⟨b, hmem, rfl⟩ := List.mem_map.1 hb
      exact wellNested_nodes fun n hn rest hr => ihBodies b hmem n hn hr
    rw [actions, List.map_append, List.map_append, marks_branches, if_pos rfl, List.append_assoc]
    rw [hm] at hr ⊢
    cases otherwise with
    | none => exact .conditional _ (by simpa using hne) bodies hr
    | some other =>
      have := WellNested.otherwise _ (by simpa using hne) bodies
        (wellNested_nodes fun n hn rest hr => ihOther other rfl n hn hr) hr
      simpa [otherwiseActions, Action.mark, marks] using this
  | @loop k p item collection body limit _ _ ih =>
    obtain ⟨m, hm⟩ : ∃ m, Draft.blockLimit - k = m + 1 := ⟨Draft.blockLimit - (k + 1), by omega⟩
    obtain rfl : m = Draft.blockLimit - (k + 1) := by omega
    rw [hm] at hr ⊢
    have := WellNested.loop (wellNested_nodes fun n hn rest hr => ih n hn hr) hr
    simpa [actions, Action.mark, marks] using this

end Node

end Stencil
