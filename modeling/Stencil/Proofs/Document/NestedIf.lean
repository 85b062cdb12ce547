import Stencil.Proofs.Document.Append
import Stencil.Proofs.Document.Unlimited
import Stencil.Proofs.Token.Reworded

/-! An `elsif` is an `else` with an `if` in it that has its own `end`. The one block becomes two,
one inside of the other, and what all later tags do to them is told by a draft whose block is
split. -/
namespace Stencil
open Outcome

def closeTwice {α : Type} (mark : α → Mark) (ending : α) : Nat → List α → List α
  | _, [] => []
  | n, x :: rest =>
    match mark x, n with
    | .tag .statement (some .if_), n => x :: closeTwice mark ending (n + 1) rest
    | .tag .statement (some .for_), n => x :: closeTwice mark ending (n + 1) rest
    | .tag .statement (some .end_), 0 => x :: ending :: rest
    | .tag .statement (some .end_), n + 1 => x :: closeTwice mark ending n rest
    | _, n => x :: closeTwice mark ending n rest

namespace Draft
variable {d e : Draft} {a : Action} {n : Nat} {u v : List OpenBlock} {nodes final : List Node}

/-- Blocks, and the same blocks with one of them split: the branches it has had up to some point,
and an `else` with a block for the others in it. Inside of that, `n` blocks are open on both
sides. -/
inductive Split : Nat → List OpenBlock → List OpenBlock → Prop where
  | branch {p p' p'' : Location} (done later : List Branch) (condition : Expr) (body : List Node)
      (around : List OpenBlock) : Split 0 (⟨p, .branch (done ++ later) condition, body⟩ :: around)
        (⟨p', .branch later condition, body⟩ :: ⟨p'', .otherwise done, []⟩ :: around)
  | otherwise {p p' p'' : Location} (done later : List Branch) (body : List Node)
      (around : List OpenBlock) : Split 0 (⟨p, .otherwise (done ++ later), body⟩ :: around)
        (⟨p', .otherwise later, body⟩ :: ⟨p'', .otherwise done, []⟩ :: around)
  | inside {n : Nat} {u v : List OpenBlock} (block : OpenBlock) : Split n u v →
      Split (n + 1) (block :: u) (block :: v)

theorem Split.add (h : Split n u v) (nodes : List Node) (node : Node) :
    ∃ u' v', (⟨u, nodes⟩ : Draft).add node = ⟨u', nodes⟩ ∧
      (⟨v, nodes⟩ : Draft).add node = ⟨v', nodes⟩ ∧
      Split n u' v' := by
  cases h with
  | branch done later condition body around =>
    exact ⟨_, _, rfl, rfl, .branch done later condition _ around⟩
  | otherwise done later body around => exact ⟨_, _, rfl, rfl, .otherwise done later _ around⟩
  | inside block inner => exact ⟨_, _, rfl, rfl, .inside _ inner⟩

theorem Split.turn (h : Split n u v) {head : List Branch → OpenBlock.Head}
    (heads : ∀ (p p' p'' : Location) (done later : List Branch) (around : List OpenBlock),
      Split 0 (⟨p, head (done ++ later), []⟩ :: around)
        (⟨p', head later, []⟩ :: ⟨p'', .otherwise done, []⟩ :: around))
    (taken : (⟨u, nodes⟩ : Draft).turn? head = some e) :
    ∃ u' v', e = ⟨u', nodes⟩ ∧ (⟨v, nodes⟩ : Draft).turn? head = some ⟨v', nodes⟩ ∧
    Split n u' v' := by
  cases h with
  | branch done later condition body around =>
    cases taken
    refine ⟨_, _, rfl, rfl, ?_⟩
    rw [List.append_assoc]
    exact heads _ _ _ done _ around
  | otherwise => cases taken
  | inside block inner =>
    obtain ⟨place, inside, body⟩ := block
    cases inside with
    | branch done condition =>
      cases taken
      exact ⟨_, _, rfl, rfl, .inside _ inner⟩
    | otherwise | loop => cases taken

/-- An action that does not end the split block leaves it split. -/
theorem Split.step (h : Split n u v) (within : a = .end_ → n ≠ 0)
    (taken : (⟨u, nodes⟩ : Draft).step? a = some e) :
    ∃ m u' v', e = ⟨u', nodes⟩ ∧ (⟨v, nodes⟩ : Draft).step? a = some ⟨v', nodes⟩ ∧ Split m u' v' ∧
      ∀ rest, closeTwice Action.mark .end_ n (a :: rest) =
        a :: closeTwice Action.mark .end_ m rest := by
  cases a with
  | text content =>
    obtain ⟨u', v', left, right, split⟩ := h.add nodes (.text 0 content)
    exact ⟨n, u', v', (Option.some.inj taken).symm.trans left, congrArg some right, split,
      fun _ => rfl⟩
  | output expression escape =>
    obtain ⟨u', v', left, right, split⟩ := h.add nodes (.output 0 expression escape)
    refine ⟨n, u', v', (Option.some.inj taken).symm.trans left, congrArg some right, split,
      fun _ => ?_⟩
    cases escape <;> rfl
  | if_ | for_ =>
    cases taken
    exact ⟨n + 1, _, _, rfl, rfl, .inside _ h, fun _ => rfl⟩
  | elsif condition =>
    have turned : (⟨u, nodes⟩ : Draft).turn? (.branch · condition) = some e := taken
    obtain ⟨u', v', left, right, split⟩ :=
      h.turn (fun _ _ _ done later around => .branch done later condition [] around) turned
    exact ⟨n, u', v', left, right, split, fun _ => rfl⟩
  | else_ =>
    have turned : (⟨u, nodes⟩ : Draft).turn? .otherwise = some e := taken
    obtain ⟨u', v', left, right, split⟩ :=
      h.turn (fun _ _ _ done later around => .otherwise done later [] around) turned
    exact ⟨n, u', v', left, right, split, fun _ => rfl⟩
  | end_ =>
    cases h with
    | branch | otherwise => exact absurd rfl (within rfl)
    | @inside m _ _ block inner =>
      obtain ⟨u', v', left, right, split⟩ := inner.add nodes block.close
      exact ⟨m, u', v', (Option.some.inj taken).symm.trans left, congrArg some right, split,
        fun _ => rfl⟩

/-- The block is closed, and the two that stand for it. -/
theorem Split.close (h : Split 0 u v) (taken : (⟨u, nodes⟩ : Draft).step? .end_ = some e) :
    ∃ e', (⟨v, nodes⟩ : Draft).steps? [.end_, .end_] = some e' ∧ e.Same e' := by
  cases h with
  | @branch p p' p'' done later condition body around =>
    cases taken
    have same :=
      Node.nodesSame_nested done (later ++ [Branch.mk condition body])
      none p.offset p''.offset p'.offset
    rw [← List.append_assoc] at same
    exact ⟨_, rfl, (same_self _).add same⟩
  | @otherwise p p' p'' done later body around =>
    cases taken
    exact ⟨_, rfl,
      (same_self _).add
      (Node.nodesSame_nested done later (some body) p.offset p''.offset p'.offset)⟩

/-- Later actions make of a split block what they make of the whole one, with one more ending behind
its own. -/
theorem Split.steps (h : Split n u v) {actions : List Action}
    (ran : (⟨u, nodes⟩ : Draft).steps? actions = some ⟨[], final⟩) :
    ∃ final', (⟨v, nodes⟩ : Draft).steps? (closeTwice Action.mark .end_ n actions) =
      some ⟨[], final'⟩ ∧
      Node.NodesSame final final' := by
  induction actions generalizing n u v with
  | nil => cases h <;> cases ran
  | cons a rest ih =>
    obtain ⟨e, taken, behind⟩ := Option.bind_eq_some_iff.1 ran
    by_cases closing : a = .end_ ∧ n = 0
    · -- behind the second ending nothing is split any more, only the nodes differ
      obtain ⟨rfl, rfl⟩ := closing
      obtain ⟨e', closed, same⟩ := h.close taken
      obtain ⟨⟨blocks, final'⟩, ran', ⟨none, done⟩⟩ := same.steps behind
      cases none
      refine ⟨final', ?_, done⟩
      have split : closeTwice Action.mark .end_ 0 (.end_ :: rest) = [.end_, .end_] ++ rest := rfl
      rw [split, steps?_append, closed, Option.bind_some, ran']
    · have within : a = .end_ → n ≠ 0 := fun ending outermost => closing ⟨ending, outermost⟩
      obtain ⟨m, u', v', rfl, taken', split, next⟩ := h.step within taken
      obtain ⟨final', ran', done⟩ := ih split behind
      exact ⟨final', by rw [next, steps?, taken', Option.bind_some, ran'], done⟩

/-- The actions of a template with an `elsif`, and those with an `if` under an `else` in its
place. -/
theorem steps?_nested {before rest : List Action} {condition : Expr}
    (ran : empty.steps? (before ++ .elsif condition :: rest) = some ⟨[], final⟩) :
    ∃ final', empty.steps? (before ++ .else_ :: .if_ condition ::
      closeTwice Action.mark .end_ 0 rest) =
      some ⟨[], final'⟩ ∧ Node.NodesSame final final' := by
  rw [steps?_append, Option.bind_eq_some_iff] at ran
  obtain ⟨⟨blocks, nodes⟩, reached, ran⟩ := ran
  obtain ⟨e, taken, ran⟩ := Option.bind_eq_some_iff.1 ran
  cases blocks with
  | nil => cases taken
  | cons block around =>
    obtain ⟨place, head, body⟩ := block
    cases head with
    | otherwise | loop => cases taken
    | branch earlier first =>
      cases taken
      -- so far, the block inside has no branches of its own
      have split :
          Split 0 (⟨place, .branch (earlier ++ [.mk first body] ++ []) condition, []⟩ :: around)
          (⟨.start, .branch [] condition, []⟩ :: ⟨place, .otherwise (earlier ++ [.mk first body]),
            []⟩ :: around) :=
        .branch _ [] condition [] around
      rw [List.append_nil] at split
      obtain ⟨final', ran', done⟩ := split.steps ran
      refine ⟨final', ?_, done⟩
      rw [steps?_append, reached, Option.bind_some]
      exact ran'

end Draft

theorem head?_closeTwice {α : Type} (mark : α → Mark) (ending : α) (n : Nat) (xs : List α) :
    (closeTwice mark ending n xs).head? = xs.head? := by
  cases xs with
  | nil => rfl
  | cons x rest =>
    unfold closeTwice
    split <;> rfl

namespace Part
variable {parts : List Part}

theorem kept_end : Action.Kept (fun _ => "") .end_ := Action.kept_word rfl rfl

theorem kept_else : Action.Kept (fun _ => "") .else_ := Action.kept_word rfl rfl

theorem row_closeTwice (h : Row parts) (n : Nat) :
    Row (closeTwice mark (statement .end_ "") n parts) := by
  induction parts generalizing n with
  | nil => trivial
  | cons p rest ih =>
    cases p with
    | text place content =>
      obtain ⟨literal, apart, row⟩ := h
      exact ⟨literal, by rwa [head?_closeTwice], ih row n⟩
    | tag kind place code =>
      obtain ⟨hcode, row⟩ := h
      unfold closeTwice
      split
      · exact ⟨hcode, ih row _⟩
      · exact ⟨hcode, ih row _⟩
      · exact ⟨hcode, kept_end.2 _ _ _ rfl, row⟩
      · exact ⟨hcode, ih row _⟩
      · exact ⟨hcode, ih row _⟩

theorem mapM_closeTwice {actions : List Action} (read : parts.mapM Action.ofPart? = some actions)
    (n : Nat) :
    (closeTwice mark (statement .end_ "") n parts).mapM Action.ofPart? =
      some (closeTwice Action.mark .end_ n actions) := by
  induction parts generalizing n actions with
  | nil =>
    cases read
    rfl
  | cons p rest ih =>
    obtain ⟨a, others, told, later, rfl⟩ := mapM_cons_eq_some_iff.1 read
    have ending : Action.ofPart? (statement .end_ "") = some .end_ := kept_end.1
    unfold closeTwice
    rw [Action.mark_of_ofPart? told]
    split
    · exact mapM_cons_eq_some_iff.2 ⟨a, _, told, ih later _, rfl⟩
    · exact mapM_cons_eq_some_iff.2 ⟨a, _, told, ih later _, rfl⟩
    · exact mapM_cons_eq_some_iff.2 ⟨a, _, told,
        mapM_cons_eq_some_iff.2 ⟨_, _, ending, later, rfl⟩, rfl⟩
    · exact mapM_cons_eq_some_iff.2 ⟨a, _, told, ih later _, rfl⟩
    · exact mapM_cons_eq_some_iff.2 ⟨a, _, told, ih later _, rfl⟩

/-- With another word in front, the tag of an `elsif` is one of an `if` with the same condition. -/
theorem ofPart?_reword {place : Location} {code : String} {a : Action}
    (word : Token.leading? code.toList = some .elsif)
    (told : Action.ofPart? (.tag .statement place code) = some a) :
    ∃ condition, a = .elsif condition ∧
      Action.ofPart? (.tag .statement .start (String.ofList (Token.reword .if_ code.toList))) =
        some (.if_ condition) := by
  obtain ⟨blanks, rest, worded⟩ := Token.worded_of_leading? word
  simp only [Action.ofPart?, Option.bind_eq_bind, Option.bind_eq_some_iff] at told
  obtain ⟨tokens, scanned, told⟩ := told
  have read := eq_ok_of_toOption scanned
  rw [worded.scanned, map_eq_ok_iff] at read
  obtain ⟨others, later, rfl⟩ := read
  obtain ⟨condition, made, rfl⟩ := Option.map_eq_some_iff.1 told
  refine ⟨condition, rfl, ?_⟩
  rw [Action.ofPart?, String.toList_ofList, (worded.reword .if_).scanned, later]
  exact Option.map_eq_some_iff.2 ⟨condition, made, rfl⟩

theorem code_reword {code : List Char} (word : Token.leading? code = some .elsif)
    (h : Code .statement code) :
    Code .statement (Token.reword .if_ code) := by
  obtain ⟨blanks, rest, worded⟩ := Token.worded_of_leading? word
  have other := worded.reword .if_
  exact ⟨other.begins, other.closed_iff.2 (worded.closed_iff.1 h.2)⟩

end Part

namespace Document

/-- The parts around the tag of an `elsif` with this code, with an `if` under an `else` in its place
that has an `end` of its own. -/
def nested (before : List Part) (code : String) (rest : List Part) : List Part :=
  before ++ Part.statement .else_ "" ::
    .tag .statement .start (String.ofList (Token.reword .if_ code.toList)) ::
      closeTwice Part.mark (Part.statement .end_ "") 0 rest

variable {source code : String} {d : Document} {before rest : List Part} {place stop : Location}

theorem row_nested (hb : Part.Row before) (hcode : Part.Code .statement code.toList)
    (word : Token.leading? code.toList = some .elsif) (hr : Part.Row rest) :
    Part.Row (nested before code rest) := by
  refine Part.row_append_iff.2 ⟨hb, ⟨Part.kept_else.2 _ _ _ rfl, ?_, Part.row_closeTwice hr 0⟩,
    fun _ _ _ next => by cases next⟩
  rw [String.toList_ofList]
  exact Part.code_reword word hcode

theorem mapM_nested {first last : List Action} {condition : Expr}
    (hb : before.mapM Action.ofPart? = some first)
    (word : Action.ofPart?
    (.tag .statement .start (String.ofList (Token.reword .if_ code.toList))) =
      some (.if_ condition)) (hr : rest.mapM Action.ofPart? = some last) :
    (nested before code rest).mapM Action.ofPart? =
      some (first ++ .else_ :: .if_ condition :: closeTwice Action.mark .end_ 0 last) := by
  have opening : Action.ofPart? (Part.statement .else_ "") = some .else_ := Part.kept_else.1
  have behind := mapM_cons_eq_some_iff.2 ⟨_, _, word, Part.mapM_closeTwice hr 0, rfl⟩
  exact mapM_append_eq_some_iff.2 ⟨first, _, hb,
    mapM_cons_eq_some_iff.2 ⟨_, _, opening, behind, rfl⟩, rfl⟩

/-- In any template that compiles, an `elsif` is as good as an `if` under an `else`, unless that
makes one block too many. -/
theorem parse_nested (h : parse source = .ok d)
    (cut : Part.ofSource source = .ok (before ++ .tag .statement place code :: rest, stop))
    (word : Token.leading? code.toList = some .elsif) :
    (∃ d', parse (String.ofList (Part.sources (nested before code rest))) = .ok d' ∧
      ∀ (g : Globals) (scope : Scope), d'.render g scope = d.render g scope) ∨
    ∃ place, parse (String.ofList (Part.sources (nested before code rest))) =
      .error (.at (.tooDeep Draft.blockLimit) place) := by
  obtain ⟨parts, actions, cut', read, ran⟩ := actions_of_parse h
  obtain rfl : parts = before ++ .tag .statement place code :: rest := by
    rw [Part.ofSource, cut'] at cut
    exact (Prod.mk.inj (Except.ok.inj cut)).1
  obtain ⟨row, ⟨hcode, row'⟩, -⟩ := Part.row_append_iff.1 (Part.scan_eq_ok_iff.1 cut').1
  obtain ⟨first, others, earlier, there, rfl⟩ := mapM_append_eq_some_iff.1 read
  obtain ⟨a, last, told, later, rfl⟩ := mapM_cons_eq_some_iff.1 there
  obtain ⟨condition, rfl, told'⟩ := Part.ofPart?_reword word told
  obtain ⟨final, ran', same⟩ := Draft.steps?_nested (Draft.steps?_of_run? ran)
  obtain ⟨found, whole, alike⟩ := Part.scan_sources (row_nested row hcode word row') .start
  have read' : found.mapM Action.ofPart? =
      some (first ++ .else_ :: .if_ condition :: closeTwice Action.mark .end_ 0 last) := by
    rw [← Part.mapM_ofPart?_unplaced, alike, Part.mapM_ofPart?_unplaced]
    exact mapM_nested earlier told' later
  rw [← @String.toList_ofList (Part.sources _)] at whole
  have parsed := parse_meets whole read' ran'
  cases hp : parse (String.ofList (Part.sources (nested before code rest))) with
  | error fault =>
    rw [hp] at parsed
    obtain ⟨place, rfl⟩ := parsed
    exact .inr ⟨place, rfl⟩
  | ok d' =>
    rw [hp, meets_ok] at parsed
    refine .inl ⟨d', rfl, fun g scope => ?_⟩
    have room := room_of_parse h
    have room' := room_of_parse hp
    rw [← render_unplaced_of_parse h, ← render_unplaced_of_parse hp, render, render, pieces, pieces]
    rw [parsed] at room' ⊢
    rw [same g scope 0 0 0 room room']

/-- A loop inside of the branch and an `else` behind it go with the new block. -/
theorem parse_nested_loop :
    ∃ (d : Document) (before : List Part) (rest : List Part) (place stop : Location),
      parse "<% if a %>1<% elsif b %><% for i in l %><%= i %><% end %><% else %>2<% end %>3" =
        .ok d ∧
      Part.ofSource
        "<% if a %>1<% elsif b %><% for i in l %><%= i %><% end %><% else %>2<% end %>3" =
        .ok (before ++ .tag .statement place " elsif b " :: rest, stop) ∧
      String.ofList (Part.sources (nested before " elsif b " rest)) =
        "<% if a %>1<% else %><% if b %><% for i in l %><%= i %><% end %><% else %>2<% end %><% end %>3" ∧
      ∃ d', parse
        "<% if a %>1<% else %><% if b %><% for i in l %><%= i %><% end %><% else %>2<% end %><% end %>3" =
          .ok d' ∧ ∀ (g : Globals) (scope : Scope), d'.render g scope = d.render g scope := by
  let before : List Part := [.tag .statement ⟨0, 1, 1⟩ " if a ", .text ⟨10, 1, 11⟩ "1"]
  let rest : List Part :=
    [.tag .statement ⟨24, 1, 25⟩ " for i in l ", .tag .escaped ⟨40, 1, 41⟩ " i ",
      .tag .statement ⟨48, 1, 49⟩ " end ", .tag .statement ⟨57, 1, 58⟩ " else ",
      .text ⟨67, 1, 68⟩ "2",
    .tag .statement ⟨68, 1, 69⟩ " end ", .text ⟨77, 1, 78⟩ "3"]
  have compiles : (parse
      "<% if a %>1<% elsif b %><% for i in l %><%= i %><% end %><% else %>2<% end %>3"
      |>.toOption.isSome) = true := by
    cbv
  obtain ⟨d, parsed⟩ := Option.isSome_iff_exists.1 compiles
  have cut :
      Part.ofSource
      "<% if a %>1<% elsif b %><% for i in l %><%= i %><% end %><% else %>2<% end %>3" =
      .ok (before ++ .tag .statement ⟨11, 1, 12⟩ " elsif b " :: rest, ⟨78, 1, 79⟩) := by cbv
  have text : String.ofList (Part.sources (nested before " elsif b " rest)) =
      "<% if a %>1<% else %><% if b %><% for i in l %><%= i %><% end %><% else %>2<% end %><% end %>3" := by
    cbv
  have compiles' : (parse
      "<% if a %>1<% else %><% if b %><% for i in l %><%= i %><% end %><% else %>2<% end %><% end %>3"
      |>.toOption.isSome) = true := by
    cbv
  refine ⟨d, before, rest, _, _, eq_ok_of_toOption parsed, cut, text, ?_⟩
  rcases parse_nested (eq_ok_of_toOption parsed) cut (by cbv) with same | ⟨place, failed⟩
  · rwa [text] at same
  · rw [← text, failed] at compiles'
    cases compiles'

end Document
end Stencil
