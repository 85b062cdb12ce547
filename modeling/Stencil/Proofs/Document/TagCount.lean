import Stencil.Proofs.Document.Faults
import Stencil.Proofs.Document.Linear

/-! Counting tags through the whole life of a reader. The count is that of the last template that
could be split up, as far as it was read; for a template that parses it can be read off the document
too. -/
namespace Stencil
open Outcome

def Part.isTag : Part → Bool
  | text .. => false
  | tag .. => true

namespace Action

def isTag : Action → Bool
  | text _ => false
  | _ => true

theorem isTag_condition (first : Bool) (e : Expr) : (condition first e).isTag = true := by
  cases first <;> rfl

theorem isTag_unplaced (a : Action) : a.unplaced.isTag = a.isTag := by
  cases a <;> rfl

theorem isTag_of_ofTokens? {tokens : List Token} {a : Action} (h : ofTokens? tokens = some a) :
    a.isTag = true := by
  cases tokens with
  | nil => cases h
  | cons t rest =>
    obtain ⟨kind, text, place, width⟩ := t
    cases kind with
    | keyword word =>
      cases word with
      | if_ | elsif | else_ | end_ =>
        obtain ⟨_, -, rfl⟩ := Option.map_eq_some_iff.1 h
        rfl
      | for_ =>
        obtain ⟨⟨item, rest'⟩, -, h⟩ := Option.bind_eq_some_iff.1 h
        obtain ⟨⟨_, rest''⟩, -, h⟩ := Option.bind_eq_some_iff.1 h
        obtain ⟨collection, -, h⟩ := Option.bind_eq_some_iff.1 h
        cases h
        rfl
      | _ => cases h
    | _ => cases h

/-- What a tag says is said in a tag. -/
theorem isTag_of_ofPart? {p : Part} {a : Action} (h : ofPart? p = some a) : a.isTag = p.isTag := by
  cases p with
  | text place content =>
    cases h
    rfl
  | tag kind place code =>
    obtain ⟨tokens, -, told⟩ := Option.bind_eq_some_iff.1 h
    cases kind with
    | statement => exact isTag_of_ofTokens? told
    | escaped | raw =>
      obtain ⟨e, -, rfl⟩ := Option.map_eq_some_iff.1 told
      rfl

theorem countP_of_mapM {parts : List Part} {actions : List Action}
    (h : parts.mapM ofPart? = some actions) :
    parts.countP Part.isTag = actions.countP isTag := by
  induction parts generalizing actions with
  | nil =>
    cases h
    rfl
  | cons p rest ih =>
    obtain ⟨a, others, told, read, rfl⟩ := mapM_cons_eq_some_iff.1 h
    rw [List.countP_cons, List.countP_cons, ih read, isTag_of_ofPart? told]

end Action

namespace Node

mutual

/-- The tags that a node is written with: one for output, two around the body of a loop, and for a
conditional one for each branch, one for an `else` and one for the end. -/
def tagCount : Node → Nat
  | text .. => 0
  | output .. => 1
  | conditional _ branches otherwise =>
    branches.length + 1 + (if otherwise.isSome then 1 else 0) +
      (branchesTagCount branches + otherwiseTagCount otherwise)
  | loop _ _ _ body => 2 + nodesTagCount body
  | foreign _ => 0

def branchesTagCount : List Branch → Nat
  | [] => 0
  | .mk _ body :: rest => nodesTagCount body + branchesTagCount rest

def otherwiseTagCount : Option (List Node) → Nat
  | none => 0
  | some body => nodesTagCount body

def nodesTagCount : List Node → Nat
  | [] => 0
  | n :: rest => tagCount n + nodesTagCount rest

end

mutual

theorem countP_actions (n : Node) : n.actions.countP Action.isTag = n.tagCount := by
  cases n with
  | text | output | foreign => rfl
  | conditional p branches otherwise =>
    have inner := countP_branchesActions true branches
    have last := countP_otherwiseActions otherwise
    rw [actions, tagCount, List.countP_append, List.countP_append, inner, last]
    have ended : List.countP Action.isTag [.end_] = 1 := rfl
    omega
  | loop p x collection body =>
    have inner := countP_nodesActions body
    rw [actions, tagCount, List.countP_cons_of_pos rfl, List.countP_append, inner]
    have ended : List.countP Action.isTag [.end_] = 1 := rfl
    omega

theorem countP_nodesActions (nodes : List Node) :
    (nodesActions nodes).countP Action.isTag = nodesTagCount nodes := by
  cases nodes with
  | nil => rfl
  | cons n rest =>
    rw [nodesActions, nodesTagCount, List.countP_append, countP_actions n, countP_nodesActions rest]

theorem countP_branchesActions (first : Bool) (branches : List Branch) :
    (branchesActions first branches).countP Action.isTag =
      branches.length + branchesTagCount branches := by
  cases branches with
  | nil => rfl
  | cons b rest =>
    obtain ⟨condition, body⟩ := b
    have inner := countP_nodesActions body
    have others := countP_branchesActions false rest
    rw [branchesActions, branchesTagCount,
      List.countP_cons_of_pos (Action.isTag_condition first condition), List.countP_append, inner,
        others, List.length_cons]
    omega

theorem countP_otherwiseActions (otherwise : Option (List Node)) :
    (otherwiseActions otherwise).countP Action.isTag =
      (if otherwise.isSome then 1 else 0) + otherwiseTagCount otherwise := by
  cases otherwise with
  | none => rfl
  | some body =>
    have inner := countP_nodesActions body
    rw [otherwiseActions, otherwiseTagCount, List.countP_cons_of_pos rfl, inner, Option.isSome_some,
      if_pos rfl]
    omega

end

end Node

namespace Document

def tagCount (d : Document) : Nat := Node.nodesTagCount d.nodes

/-- A document has as many tags as the template it was parsed from. -/
theorem tagCount_of_parse {source : String} {d : Document} {parts : List Part} {stop : Location}
    (h : parse source = .ok d) (cut : Part.ofSource source = .ok (parts, stop)) :
    d.tagCount = parts.countP Part.isTag := by
  obtain ⟨parts', actions, scanned, read, ran⟩ := actions_of_parse h
  rw [Part.ofSource, scanned] at cut
  cases cut
  have row := Draft.nodesActions_of_run? ran
  have same : Action.isTag ∘ Action.unplaced = Action.isTag := funext Action.isTag_unplaced
  rw [Action.countP_of_mapM read, ← row, unplaced, Node.nodesActions_unplaced,
    List.countP_map, same, Node.countP_nodesActions, tagCount]

end Document

namespace Document

theorem ofPartsCounted_cons {d d' : Draft} {p : Part} (h : d.part p = .ok d') (count : Nat)
    (rest : List Part) :
    ofPartsCounted d count (p :: rest) =
      ofPartsCounted d' (count + [p].countP Part.isTag) rest := by
  cases p <;> simp only [ofPartsCounted, h] <;> rfl

/-- A row of parts is taken to its end, or up to a tag that cannot be taken. -/
theorem ofPartsCounted_cases (d : Draft) (count : Nat) (parts : List Part) :
    (∃ d', parts.foldlM Draft.part d = .ok d' ∧
      ofPartsCounted d count parts = (d'.finish, count + parts.countP Part.isTag)) ∨
    ∃ before p rest d' fault, parts = before ++ p :: rest ∧ p.isTag = true ∧
      before.foldlM Draft.part d = .ok d' ∧ d'.part p = .error fault ∧
      ofPartsCounted d count parts = (.error fault, count + before.countP Part.isTag + 1) := by
  induction parts generalizing d count with
  | nil => exact .inl ⟨d, rfl, rfl⟩
  | cons p rest ih =>
    cases taken : d.part p with
    | error fault =>
      cases p with
      | text place content => cases taken
      | tag kind place code =>
        refine .inr ⟨[], .tag kind place code, rest, d, fault, rfl, rfl, rfl, taken, ?_⟩
        simp only [ofPartsCounted, taken, List.countP_nil, Nat.add_zero]
    | ok d₁ =>
      have counted (row : List Part) :
          count + [p].countP Part.isTag + row.countP Part.isTag =
            count + (p :: row).countP Part.isTag := by
        rw [List.countP_cons, List.countP_cons, List.countP_nil]
        omega
      have behind (row : List Part) : (p :: row).foldlM Draft.part d =
          row.foldlM Draft.part d₁ := by
        rw [List.foldlM_cons, taken, ok_bind]
      rw [ofPartsCounted_cons taken, behind rest]
      obtain ⟨d', whole, same⟩ | ⟨before, q, rest', d', fault, rfl, tag, whole, failed, same⟩ :=
        ih d₁ _
      · exact .inl ⟨d', whole, by rw [same, counted]⟩
      · have taken' := (behind before).trans whole
        exact .inr ⟨p :: before, q, rest', d', fault, rfl, tag, taken',
          failed, by rw [same, counted]⟩

end Document

namespace Reader

inductive Call where
  | parse (source : String)
  | validate (source : String)
  | tags (source : String)

inductive Answer where
  | document (outcome : Except ParseFault Document)
  | report (outcome : Except ParseFault (Option String))
  | sources (outcome : Except ParseFault (List String))

def step (r : Reader) : Call → Answer × Reader
  | .parse source =>
    let done := r.parse source
    (.document done.1, done.2)
  | .validate source =>
    let done := r.validate source
    (.report done.1, done.2)
  | .tags source => (.sources (tags source), r)

def run (r : Reader) : List Call → List Answer × Reader
  | [] => ([], r)
  | c :: rest =>
    let others := run (r.step c).2 rest
    ((r.step c).1 :: others.1, others.2)

theorem step_fst (r r' : Reader) (c : Call) : (r.step c).1 = (r'.step c).1 := by
  cases c with
  | parse source =>
    exact congrArg Answer.document
      ((Document.parse_fst r source).trans (Document.parse_fst r' source).symm)
  | validate source =>
    exact congrArg Answer.report
      ((Document.validate_fst r source).trans (Document.validate_fst r' source).symm)
  | tags source => rfl

theorem run_fst (r : Reader) (calls : List Call) :
    (r.run calls).1 = calls.map fun c => (start.step c).1 := by
  induction calls generalizing r with
  | nil => rfl
  | cons c calls ih => rw [run, ih, step_fst r start, List.map_cons]

theorem validate_snd (r : Reader) (source : String) :
    (r.validate source).2 = (r.parse source).2 := by
  unfold validate
  dsimp only
  split <;> rfl

theorem length_tags {source : String} {parts : List Part} {stop : Location}
    (cut : Part.ofSource source = .ok (parts, stop)) :
    ∃ found, tags source = .ok found ∧ found.length = parts.countP Part.isTag := by
  rw [tags, cut]
  refine ⟨_, rfl, ?_⟩
  rw [List.length_filterMap_eq_countP]
  congr 1
  funext p
  cases p <;> rfl

/-- All parts of a template are taken, or all before a tag that is not. -/
theorem parse_cases (r : Reader) {source : String} {parts : List Part} {stop : Location}
    (cut : Part.ofSource source = .ok (parts, stop)) :
    (∃ d, parts.foldlM Draft.part .empty = .ok d ∧ (r.parse source).1 = d.finish ∧
      (r.parse source).2.tagCount = parts.countP Part.isTag) ∨
    ∃ before p rest d fault, parts = before ++ p :: rest ∧ p.isTag = true ∧
      before.foldlM Draft.part .empty = .ok d ∧ d.part p = .error fault ∧
      (r.parse source).1 = .error fault ∧
      (r.parse source).2.tagCount = before.countP Part.isTag + 1 := by
  obtain ⟨outcome, count⟩ := parts_eq { r with tagCount := 0 } .empty parts
  rw [parse, cut]
  dsimp only at outcome count ⊢
  rw [outcome, count]
  obtain ⟨d, whole, same⟩ | ⟨before, p, rest, d, fault, split, tag, taken, failed, same⟩ :=
    Document.ofPartsCounted_cases .empty 0 parts
  · exact .inl ⟨d, whole, by rw [same], by rw [same, Nat.zero_add]⟩
  · exact .inr ⟨before, p, rest, d, fault, split, tag, taken,
      failed, by rw [same], by rw [same, Nat.zero_add]⟩

theorem parse_of_uncut (r : Reader) {source : String} {fault : ParseFault}
    (uncut : Part.ofSource source = .error fault) : (r.parse source).2 = r := by
  rw [parse, uncut]

theorem step_snd (r : Reader) {source : String} {c : Call}
    (reads : c = .parse source ∨ c = .validate source) :
    (r.step c).2 = (r.parse source).2 := by
  obtain rfl | rfl := reads
  · rfl
  · exact validate_snd r source

/-- Whatever a reader was asked before, it answers like one that was never used. The count of tags
stays as it is when only the sources of tags are asked for, or when the text cannot be split up.
Otherwise all parts of the template were taken, and it is a document or just left open: then the
count is that of its tags, which are as many as their sources and as the document has. Or a tag was
not taken, and the count is up to this one. -/
theorem tagCount_run (calls : List Call) :
    (start.run calls).1 = calls.map (fun c => (start.step c).1) ∧
      ∀ source : String,
        let r := (start.run calls).2
        (r.step (.tags source)).2.tagCount = r.tagCount ∧
          ∀ c : Call, c = .parse source ∨ c = .validate source →
            let count := (r.step c).2.tagCount
            (∀ fault, Part.ofSource source = .error fault → count = r.tagCount) ∧
              ∀ parts stop, Part.ofSource source = .ok (parts, stop) →
                (∃ d, parts.foldlM Draft.part .empty = .ok d ∧ (r.parse source).1 = d.finish ∧
                  count = parts.countP Part.isTag ∧
                  (∃ found, tags source = .ok found ∧ found.length = count) ∧
                  ∀ document, (r.parse source).1 = .ok document → document.tagCount = count) ∨
                ∃ before p rest d fault, parts = before ++ p :: rest ∧ p.isTag = true ∧
                  before.foldlM Draft.part .empty = .ok d ∧ d.part p = .error fault ∧
                  (r.parse source).1 = .error fault ∧ count = before.countP Part.isTag + 1 := by
  refine ⟨run_fst start calls, fun source => ?_⟩
  dsimp only
  generalize (start.run calls).2 = r
  refine ⟨rfl, fun c reads => ?_⟩
  rw [step_snd r reads]
  refine ⟨fun fault uncut => by rw [parse_of_uncut r uncut], fun parts stop cut => ?_⟩
  obtain ⟨d, whole, outcome, count⟩ | stopped := r.parse_cases cut
  · obtain ⟨found, told, length⟩ := length_tags cut
    refine .inl ⟨d, whole, outcome, count, ⟨found, told, length.trans count.symm⟩,
      fun document parsed => ?_⟩
    rw [Document.parse_fst] at parsed
    exact (Document.tagCount_of_parse parsed cut).trans count.symm
  · exact .inr stopped

-- the sources asked for last do not count, and the loop before them counts up to the tag at fault
example : (start.run [.parse "<%= a %>", .parse "<% for x in y %><% elsif x %>",
    .tags "<%= b %>"]).2.tagCount = 2 := by
  cbv

end Reader
end Stencil
