import Stencil.Proofs.Document.Nesting
import Stencil.Proofs.Document.Output
import Stencil.Proofs.Token.Layout

/-! Documents written as templates, given a text for each expression. What was written is cut into
the same parts again, and each part says what it was written for. -/
namespace Stencil
open Outcome

/-- The text, put out, is read as the expression. -/
def Spells (text : String) (e : Expr) : Prop :=
  ∃ position e', Document.parse ("<%= " ++ text ++ " %>") = .ok ⟨[.output position e' true]⟩ ∧
    e'.unplaced = e.unplaced

def Part.statement (word : Keyword) (rest : String) : Part :=
  .tag .statement .start (" " ++ word.text ++ rest ++ " ")

def Action.part (spell : Expr → String) : Action → Part
  | text content => .text .start content
  | output e true => .tag .escaped .start (" " ++ spell e ++ " ")
  | output e false => .tag .raw .start (" " ++ spell e ++ " ")
  | if_ condition => .statement .if_ (" " ++ spell condition)
  | elsif condition => .statement .elsif (" " ++ spell condition)
  | else_ => .statement .else_ ""
  | for_ item collection => .statement .for_ (" " ++ item ++ " in " ++ spell collection)
  | end_ => .statement .end_ ""

namespace Document

def parts (spell : Expr → String) (d : Document) : List Part :=
  (Node.nodesActions d.nodes).map (Action.part spell)

def write (spell : Expr → String) (d : Document) : String :=
  String.ofList (Part.sources (d.parts spell))

end Document

def Action.expression? : Action → Option Expr
  | output e _ | if_ e | elsif e | for_ _ e => some e
  | _ => none

def Action.Named : Action → Prop
  | for_ item _ => Token.IsName item.toList ∧ Keyword.ofText? item = none
  | _ => True

def Action.Spelled (spell : Expr → String) (a : Action) : Prop :=
  (∀ e ∈ a.expression?, Spells (spell e) e) ∧ a.Named

example : Document.write (fun _ => "x")
    ⟨[.text 0 "a",
      .conditional 0 [.mk default [], .mk default [.output 0 default true]] (some [])]⟩ =
    "a<% if x %><% elsif x %><%= x %><% else %><% end %>" := by decide

theorem seen_of_ofPart? {place : Location} {code : String} {e : Expr} {escape : Bool}
    (h : Action.ofPart? (.tag .escaped place code) = some (.output e escape)) :
    Expr.seen code.toList = .ok e := by
  simp only [Action.ofPart?, Option.bind_eq_bind, Option.bind_eq_some_iff,
    Option.map_eq_some_iff] at h
  obtain ⟨tokens, scanned, e', read, heq⟩ := h
  cases heq
  rw [Expr.seen, eq_ok_of_toOption scanned, ok_bind, eq_ok_of_toOption read]

/-- The text with blanks around it is closed code that is read as the expression. -/
theorem Spells.code {text : String} {e : Expr} (h : Spells text e) :
    Quotes.Closed .outside (' ' :: (text.toList ++ [' '])) ∧
      Expr.seen (' ' :: (text.toList ++ [' '])) = .ok e.unplaced := by
  obtain ⟨position, e', parsed, same⟩ := h
  obtain ⟨parts, actions, cut, read, ran⟩ := Document.actions_of_parse parsed
  obtain ⟨row, -, whole⟩ := Part.scan_eq_ok_iff.1 cut
  obtain rfl : [.output e'.unplaced true] = actions := Draft.nodesActions_of_run? ran
  -- one mark, so the one tag of the template is the whole template
  obtain ⟨p, rfl, hp⟩ := List.map_eq_singleton_iff.1 (Action.marks_of_mapM read)
  cases p with
  | text => cases hp
  | tag kind place code =>
    obtain rfl : kind = .escaped := (Mark.tag.inj hp).1
    have hcode : code.toList = ' ' :: (text.toList ++ [' ']) := by
      have inside : code.toList ++ ['%', '>'] = ' ' :: (text.toList ++ [' ']) ++ ['%', '>'] := by
        simpa [Part.source, TagKind.opener, Part.closer] using whole
      exact List.append_cancel_right inside
    rw [← hcode, ← same]
    refine ⟨row.1.2, ?_⟩
    obtain ⟨a, rest, told, -, single⟩ := mapM_cons_eq_some_iff.1 read
    obtain rfl : .output e'.unplaced true = a := (List.cons.inj single).1
    exact seen_of_ofPart? told

/-- Closed code that is read as the expression is a text of it. -/
theorem spells_of_seen {code : List Char} {e : Expr}
    (closed : Quotes.Closed .outside (code ++ [' ']))
    (seen : Expr.seen (code ++ [' ']) = .ok e.unplaced) : Spells (String.ofList code) e := by
  have read : Expr.seen (' ' :: (code ++ [' '])) = .ok e.unplaced := by
    rwa [Expr.seen, Token.scanned_space]
  obtain ⟨e', found, same⟩ := Expr.exists_of_seen_ok read (Part.codePlace .escaped .start)
  refine ⟨0, e', ?_, same⟩
  rw [Document.output_source, String.toList_ofList,
    Document.parse_output (Token.closed_space closed), found, map_ok]

/-- Tokens that make up an expression can be written as a text of it. -/
theorem spells_spread {tokens : List Token} {e : Expr} (lexed : Token.Lexed false tokens)
    (made : Expr.ofTokens .start tokens = .ok e) :
    Spells (String.ofList (Token.spread tokens)) e := by
  have unplaced : Expr.ofTokens .start (tokens.map Token.unplaced) = .ok e.unplaced := by
    rw [← Expr.ofTokens_unplaced .start, made]
    rfl
  refine spells_of_seen (Token.closed_spread lexed) ?_
  rw [Expr.seen, Token.scanned_spread lexed, ok_bind, unplaced]

section Codes
variable {rest : List Char}

theorem scanned_keyword (word : Keyword) (rest : List Char) :
    Token.scanned false (word.text.toList ++ ' ' :: rest) =
    (Token.scanned false (' ' :: rest)).map (Token.bare (.keyword word) word.text :: ·) := by
  have spelled : Token.Spelled false (.keyword word) word.text.toList := .keyword word rfl
  have h := Token.scanned_spelling spelled (fun _ => Token.apart_space rest) nofun
  rwa [String.ofList_toList] at h

theorem closed_keyword (word : Keyword) (h : Quotes.Closed .outside (' ' :: rest)) :
    Quotes.Closed .outside (word.text.toList ++ ' ' :: rest) :=
  Token.closed_spelling (.keyword word rfl :
    Token.Spelled false _ _) (fun _ => Token.apart_space rest) h

theorem scanned_item {item : String} (spelled : Token.Spelled false .identifier item.toList)
    (rest : List Char) :
    Token.scanned false (item.toList ++ ' ' :: rest) =
      (Token.scanned false (' ' :: rest)).map (Token.bare .identifier item :: ·) := by
  have h := Token.scanned_spelling spelled (fun _ => Token.apart_space rest) nofun
  rwa [String.ofList_toList] at h

theorem closed_item {item : String} (spelled : Token.Spelled false .identifier item.toList)
    (h : Quotes.Closed .outside (' ' :: rest)) :
    Quotes.Closed .outside (item.toList ++ ' ' :: rest) :=
  Token.closed_spelling spelled (fun _ => Token.apart_space rest) h

end Codes

theorem leading?_keyword (word : Keyword) (rest : List Char) :
    Token.leading? (' ' :: (word.text.toList ++ ' ' :: rest)) = some word := by
  obtain ⟨c, cs, heq, space, found⟩ :=
    Token.lexeme_spelling (.keyword word rfl : Token.Spelled false _ _)
    (fun _ => Token.apart_space rest) nofun
  have htext : word.text.toList = c :: cs := heq
  rw [htext, List.cons_append, Token.leading?, if_pos (by decide), Token.leading?,
    if_neg (by simp [space]), found]
  rfl

section Statement
variable {word : Keyword} {after : String} {more : List Char}
    (h : after.toList ++ [' '] = ' ' :: more)
include h

theorem toList_statement :
    (" " ++ word.text ++ after ++ " ").toList = ' ' :: (word.text.toList ++ ' ' :: more) := by
  simp [← h]

theorem mark_statement : (Part.statement word after).mark = .statement word := by
  rw [Part.statement, Part.mark, toList_statement h, leading?_keyword]
  rfl

theorem code_statement (closed : Quotes.Closed .outside (' ' :: more)) {kind : TagKind}
    {place : Location} {code : String}
    (hp : Part.statement word after = .tag kind place code) : Part.Code kind code.toList := by
  cases hp
  rw [toList_statement h]
  exact ⟨fun _ => by simp, Token.closed_space (closed_keyword word closed)⟩

theorem ofPart?_statement {tokens : List Token}
    (hs : Token.scanned false (' ' :: more) = .ok tokens) :
    Action.ofPart? (.statement word after) =
      Action.ofTokens? (Token.bare (.keyword word) word.text :: tokens) := by
  rw [Part.statement, Action.ofPart?, toList_statement h, Token.scanned_space, scanned_keyword, hs]
  rfl

end Statement

namespace Action
variable {spell : Expr → String}

/-- What is written for an action is cut into one part that can stand in a template. -/
def Kept (spell : Expr → String) (a : Action) : Prop :=
  ofPart? (a.part spell) = some a.unplaced ∧
    ∀ kind place code, a.part spell = .tag kind place code →
    Part.Code kind code.toList

theorem kept_condition {word : Keyword} {e : Expr} (h : Spells (spell e) e) {a : Action}
    (ha : a.part spell = .statement word (" " ++ spell e))
    (read : ∀ tokens, Expr.ofTokens .start tokens = .ok e.unplaced →
      ofTokens? (Token.bare (.keyword word) word.text :: tokens) = some a.unplaced) :
      Kept spell a := by
  obtain ⟨closed, seen⟩ := h.code
  obtain ⟨tokens, scanned, made⟩ := bind_eq_ok_iff.1 seen
  have blanks : (" " ++ spell e).toList ++ [' '] = ' ' :: ((spell e).toList ++ [' ']) := by simp
  rw [Kept, ha]
  exact ⟨(ofPart?_statement blanks scanned).trans (read tokens made),
    fun _ _ _ => code_statement blanks closed⟩

theorem kept_word {word : Keyword} {a : Action} (ha : a.part spell = .statement word "")
    (read : ofTokens? [Token.bare (.keyword word) word.text] = some a.unplaced) : Kept spell a := by
  have blanks : "".toList ++ [' '] = ' ' :: [] := rfl
  rw [Kept, ha]
  refine ⟨(ofPart?_statement blanks (by simp)).trans read, fun _ _ _ => code_statement blanks ?_⟩
  exact Token.closed_space ⟨rfl, Quotes.guarded_nil _⟩

theorem kept_output {e : Expr} (h : Spells (spell e) e) (escape : Bool) :
    Kept spell (output e escape) := by
  obtain ⟨closed, seen⟩ := h.code
  obtain ⟨tokens, scanned, made⟩ := bind_eq_ok_iff.1 seen
  have hcode : (" " ++ spell e ++ " ").toList = ' ' :: ((spell e).toList ++ [' ']) := by simp
  cases escape with
  | true | false =>
    refine ⟨?_, ?_⟩
    · simp only [part, ofPart?, hcode, scanned, Except.toOption, Option.bind_eq_bind,
        Option.bind_some, made]
      rfl
    · intro kind place code given
      cases given
      rw [hcode]
      refine ⟨?_, closed⟩
      intro given
      cases given

theorem kept_loop {item : String} {e : Expr} (h : Spells (spell e) e)
    (spelled : Token.Spelled false .identifier item.toList) : Kept spell (for_ item e) := by
  obtain ⟨closed, seen⟩ := h.code
  obtain ⟨tokens, scanned, made⟩ := bind_eq_ok_iff.1 seen
  have blanks : (" " ++ item ++ " in " ++ spell e).toList ++ [' '] =
      ' ' :: (item.toList ++ ' ' ::
        (Keyword.in_.text.toList ++ ' ' :: ((spell e).toList ++ [' ']))) := by
    simp [Keyword.text]
  have words : Token.scanned false
      (' ' :: (item.toList ++ ' ' ::
        (Keyword.in_.text.toList ++ ' ' :: ((spell e).toList ++ [' '])))) =
      .ok (Token.bare .identifier item :: Token.bare (.keyword .in_) Keyword.in_.text ::
        tokens) := by
    rw [Token.scanned_space, scanned_item spelled, Token.scanned_space, scanned_keyword, scanned]
    rfl
  refine ⟨?_, fun _ _ _ => code_statement blanks ?_⟩
  · rw [part, ofPart?_statement blanks words, ofTokens?, Token.bare_kind]
    simp only [Expr.expect, Token.bare_kind, if_true, Except.toOption, Option.bind_eq_bind,
      Option.bind_some, made]
    rfl
  · exact Token.closed_space (closed_item spelled (Token.closed_space (closed_keyword .in_ closed)))

theorem Spelled.kept {a : Action} (h : a.Spelled spell) : Kept spell a := by
  obtain ⟨hspell, hitem⟩ := h
  cases a with
  | text content => exact ⟨rfl, by simp [part]⟩
  | output e escape => exact kept_output (hspell e rfl) escape
  | if_ e | elsif e =>
    refine kept_condition (hspell e rfl) rfl fun tokens made => ?_
    rw [ofTokens?, Token.bare_kind]
    simp only [made]
    rfl
  | else_ => exact kept_word rfl rfl
  | end_ => exact kept_word rfl rfl
  | for_ item e => exact kept_loop (hspell e rfl) (Token.spelled_identifier hitem.1 hitem.2)

/-- The mark of a part shows the action it was written for, whatever the texts of expressions
are. -/
theorem mark_part (spell : Expr → String) (a : Action) : (a.part spell).mark = a.mark := by
  cases a with
  | text content => rfl
  | output e escape => cases escape <;> rfl
  | if_ e | elsif e =>
    have blanks : (" " ++ spell e).toList ++ [' '] = ' ' :: ((spell e).toList ++ [' ']) := by simp
    exact mark_statement blanks
  | else_ | end_ =>
    have blanks : "".toList ++ [' '] = ' ' :: [] := rfl
    exact mark_statement blanks
  | for_ item e =>
    have blanks : (" " ++ item ++ " in " ++ spell e).toList ++ [' '] =
        ' ' :: (item.toList ++ " in ".toList ++ (spell e).toList ++ [' ']) := by
      simp
    exact mark_statement blanks

end Action

def Mark.Tidy : List Mark → Prop
  | [] => True
  | text content :: rest =>
    Part.Literal content.toList ∧ (∀ s, rest.head? ≠ some (text s)) ∧ Tidy rest
  | tag _ _ :: rest => Tidy rest

theorem Part.row_iff (parts : List Part) : Row parts ↔
    Mark.Tidy (parts.map mark) ∧ ∀ kind place code, tag kind place code ∈ parts →
      Code kind code.toList := by
  induction parts with
  | nil => simp [Row, Mark.Tidy]
  | cons p rest ih =>
    have heads (h : ∀ s, (rest.map mark).head? ≠ some (.text s)) (place : Location) (s : String) :
        rest.head? ≠ some (text place s) := by
      intro hs
      exact h s (by rw [List.head?_map, hs]; rfl)
    have heads' (h : ∀ place s, rest.head? ≠ some (text place s)) (s : String) :
      (rest.map mark).head? ≠ some (.text s) := by
      intro hs
      rw [List.head?_map, Option.map_eq_some_iff] at hs
      obtain ⟨q, hq, hmark⟩ := hs
      cases q with
      | text place s' => exact h place s' hq
      | tag kind place code => cases hmark
    cases p with
    | text place content =>
      simp only [Row, List.map_cons, mark, Mark.Tidy, ih, List.mem_cons, reduceCtorEq, false_or]
      constructor
      · intro given
        obtain ⟨lit, apart, tidy, codes⟩ := given
        exact ⟨⟨lit, heads' apart, tidy⟩, codes⟩
      · intro given
        obtain ⟨⟨lit, apart, tidy⟩, codes⟩ := given
        exact ⟨lit, heads apart, tidy, codes⟩
    | tag kind place code =>
      simp only [Row, List.map_cons, mark, Mark.Tidy, ih, List.mem_cons]
      constructor
      · intro given
        obtain ⟨hcode, tidy, codes⟩ := given
        refine ⟨tidy, fun kind' place' code' h => ?_⟩
        rcases h with h | h
        · cases h
          exact hcode
        · exact codes _ _ _ h
      · intro given
        obtain ⟨tidy, codes⟩ := given
        exact ⟨codes kind place code (.inl rfl), tidy, fun _ _ _ h => codes _ _ _ (.inr h)⟩

namespace Node

theorem head_branches (first : Bool) (branches : List Branch) {rest : List Mark}
    (hb : ∀ s, rest.head? ≠ some (.text s)) (s : String) :
    ((branchesActions first branches).map Action.mark ++ rest).head? ≠ some (.text s) := by
  cases branches with
  | nil => exact hb s
  | cons b more =>
    obtain ⟨condition, body⟩ := b
    rw [branchesActions, List.map_cons, Action.mark_condition]
    exact nofun

theorem head_node {n : Node} (h : n.Writable) (ht : n.isText = false) (rest : List Mark)
    (s : String) :
    (n.actions.map Action.mark ++ rest).head? ≠ some (.text s) := by
  cases n with
  | text => cases ht
  | output | loop => exact nofun
  | foreign => exact h.elim
  | conditional p branches otherwise =>
    rw [actions, List.map_append, List.append_assoc]
    refine head_branches true branches (fun s => ?_) s
    cases otherwise <;> exact nofun

mutual

theorem tidy_node {n : Node} (h : n.Writable) {rest : List Mark} (hr : Mark.Tidy rest)
    (hb : n.isText = true → ∀ s, rest.head? ≠ some (.text s)) :
    Mark.Tidy (n.actions.map Action.mark ++ rest) := by
  cases n with
  | text p content => exact ⟨h, hb rfl, hr⟩
  | output p e escape => exact hr
  | foreign kind => exact h.elim
  | loop p x collection body =>
    rw [actions, List.map_cons, List.map_append, List.cons_append, List.append_assoc]
    exact tidy_nodes h.2 hr nofun
  | conditional p branches otherwise =>
    obtain ⟨-, hbranches, hotherwise⟩ := h
    rw [actions, List.map_append, List.map_append, List.append_assoc, List.append_assoc]
    cases otherwise with
    | none => exact tidy_branches true hbranches hr nofun
    | some body => exact tidy_branches true hbranches (tidy_nodes hotherwise hr nofun) nofun

theorem tidy_nodes {nodes : List Node} (h : NodesWritable nodes) {rest : List Mark}
    (hr : Mark.Tidy rest) (hb : ∀ s, rest.head? ≠ some (.text s)) :
    Mark.Tidy ((nodesActions nodes).map Action.mark ++ rest) := by
  cases nodes with
  | nil => exact hr
  | cons n more =>
    rw [nodesActions, List.map_append, List.append_assoc]
    refine tidy_node h.1 (tidy_nodes h.2.2 hr hb) fun ht s => ?_
    cases more with
    | nil => exact hb s
    | cons m more =>
      rw [nodesActions, List.map_append, List.append_assoc]
      exact head_node h.2.2.1 (h.2.1 ht m rfl) _ s

theorem tidy_branches (first : Bool) {branches : List Branch} (h : BranchesWritable branches)
    {rest : List Mark}
    (hr : Mark.Tidy rest) (hb : ∀ s, rest.head? ≠ some (.text s)) :
    Mark.Tidy ((branchesActions first branches).map Action.mark ++ rest) := by
  cases branches with
  | nil => exact hr
  | cons b more =>
    obtain ⟨condition, body⟩ := b
    rw [branchesActions, List.map_cons, List.map_append, Action.mark_condition, List.cons_append,
      List.append_assoc]
    exact tidy_nodes h.1 (tidy_branches false h.2 hr hb) (head_branches false more hb)

end

mutual

theorem expressions_actions (n : Node) :
    n.expressions = n.actions.filterMap Action.expression? := by
  cases n with
  | text | output | foreign => rfl
  | loop p x collection body =>
    have carried : (Action.for_ x collection).expression? = some collection := rfl
    rw [expressions, actions, List.filterMap_cons_some carried, List.filterMap_append,
      nodesExpressions_actions body]
    simp [Action.expression?]
  | conditional p branches otherwise =>
    rw [expressions, actions, List.filterMap_append, List.filterMap_append,
      branchesExpressions_actions true branches, otherwiseExpressions_actions otherwise]
    simp [Action.expression?]

theorem nodesExpressions_actions (nodes : List Node) :
    nodesExpressions nodes = (nodesActions nodes).filterMap Action.expression? := by
  cases nodes with
  | nil => rfl
  | cons n rest =>
    rw [nodesExpressions, nodesActions, List.filterMap_append, expressions_actions n,
      nodesExpressions_actions rest]

theorem branchesExpressions_actions (first : Bool) (branches : List Branch) :
    branchesExpressions branches =
      (branchesActions first branches).filterMap Action.expression? := by
  cases branches with
  | nil => rfl
  | cons b rest =>
    obtain ⟨condition, body⟩ := b
    have carried : (Action.condition first condition).expression? = some condition := by
      cases first <;> rfl
    rw [branchesExpressions, branchesActions, List.filterMap_cons_some carried,
      List.filterMap_append, nodesExpressions_actions body, branchesExpressions_actions false rest,
        List.cons_append]

theorem otherwiseExpressions_actions (otherwise : Option (List Node)) :
    otherwiseExpressions otherwise = (otherwiseActions otherwise).filterMap Action.expression? := by
  cases otherwise with
  | none => rfl
  | some body =>
    rw [otherwiseExpressions, otherwiseActions, nodesExpressions_actions body]
    rfl

end

end Node

namespace Node

mutual

theorem named_node {n : Node} (h : n.Writable) : ∀ a ∈ n.actions, a.Named := by
  cases n with
  | text | output => simp [actions, Action.Named]
  | foreign => exact h.elim
  | loop p x collection body =>
    rw [actions, List.forall_mem_cons, List.forall_mem_append]
    exact ⟨h.1, named_nodes h.2, by simp [Action.Named]⟩
  | conditional p branches otherwise =>
    obtain ⟨-, hbranches, hotherwise⟩ := h
    rw [actions, List.forall_mem_append, List.forall_mem_append]
    refine ⟨named_branches true hbranches, ?_, by simp [Action.Named]⟩
    cases otherwise with
    | none => exact nofun
    | some body => exact List.forall_mem_cons.2 ⟨trivial, named_nodes hotherwise⟩

theorem named_nodes {nodes : List Node} (h : NodesWritable nodes) :
    ∀ a ∈ nodesActions nodes, a.Named := by
  cases nodes with
  | nil => exact nofun
  | cons n rest =>
    rw [nodesActions, List.forall_mem_append]
    exact ⟨named_node h.1, named_nodes h.2.2⟩

theorem named_branches (first : Bool) {branches : List Branch} (h : BranchesWritable branches) :
    ∀ a ∈ branchesActions first branches, a.Named := by
  cases branches with
  | nil => exact nofun
  | cons b rest =>
    obtain ⟨condition, body⟩ := b
    rw [branchesActions, List.forall_mem_cons, List.forall_mem_append]
    refine ⟨?_, named_nodes h.1, named_branches false h.2⟩
    cases first <;> exact trivial

end

end Node

namespace Part

def unplaced : Part → Part
  | text _ content => text .start content
  | tag kind _ code => tag kind .start code

theorem ofPart?_unplaced (p : Part) : Action.ofPart? p.unplaced = Action.ofPart? p := by
  cases p <;> rfl

theorem mapM_ofPart?_unplaced (parts : List Part) :
    (parts.map unplaced).mapM Action.ofPart? = parts.mapM Action.ofPart? := by
  rw [List.mapM_map]
  exact congrArg (List.mapM · parts) (funext ofPart?_unplaced)

theorem mark_unplaced (p : Part) : p.unplaced.mark = p.mark := by cases p <;> rfl

/-- The parts of a row are found again, at their places. -/
theorem scan_sources {parts : List Part} (h : Row parts) (place : Location) :
    ∃ found, scan place (sources parts) = .ok found ∧ found.map unplaced = parts.map unplaced := by
  induction parts generalizing place with
  | nil => exact ⟨[], by simp [scan], rfl⟩
  | cons p parts ih =>
    cases p with
    | text l s =>
      obtain ⟨literal, apart, row⟩ := h
      obtain ⟨found, hscan, same⟩ := ih row (place.after s.toList)
      have behind := atTag_sources apart (.inl rfl : AtTag [])
      rw [List.append_nil] at behind
      refine ⟨text place s :: found, ?_, by simp [unplaced, same]⟩
      rw [sources_cons, source, scan_literal literal behind, hscan, String.ofList_toList]
      rfl
    | tag kind l code =>
      obtain ⟨hcode, row⟩ := h
      obtain ⟨found, hscan, same⟩ := ih row (place.after (kind.opener ++ code.toList ++ closer))
      refine ⟨tag kind place code :: found, ?_, by simp [unplaced, same]⟩
      rw [sources_cons, source, scan_tag hcode, hscan, String.ofList_toList]
      rfl

end Part

namespace Document
variable {spell : Expr → String} {d : Document}

theorem marks_parts (spell : Expr → String) (d : Document) :
    (d.parts spell).map Part.mark = Node.marks d.nodes := by
  rw [parts, List.map_map, Node.marks]
  exact List.map_congr_left fun a _ => a.mark_part spell

/-- The template that a document is written as is cut into the parts it was written as. -/
theorem scan_write (tidy : Mark.Tidy (Node.marks d.nodes))
    (spelled : ∀ a ∈ Node.nodesActions d.nodes, a.Spelled spell) :
    ∃ found, Part.scan .start (d.write spell).toList = .ok found ∧
      found.map Part.unplaced = (d.parts spell).map Part.unplaced := by
  have row : Part.Row (d.parts spell) := by
    refine (Part.row_iff _).2 ⟨by rwa [marks_parts], fun kind place code hmem => ?_⟩
    obtain ⟨a, ha, hp⟩ := List.mem_map.1 hmem
    exact (spelled a ha).kept.2 kind place code hp
  rw [write, String.toList_ofList]
  exact Part.scan_sources row .start

theorem mapM_ofPart?_written {found : List Part}
    (same : found.map Part.unplaced = (d.parts spell).map Part.unplaced)
    (spelled : ∀ a ∈ Node.nodesActions d.nodes, a.Spelled spell) :
    found.mapM Action.ofPart? = some (Node.nodesActions (Node.nodesUnplaced d.nodes)) := by
  rw [← Part.mapM_ofPart?_unplaced, same, Part.mapM_ofPart?_unplaced, parts, List.mapM_map,
    Node.nodesActions_unplaced]
  exact mapM_of_forall fun a ha => (spelled a ha).kept.1

theorem spelled_actions (h : Node.NodesWritable d.nodes)
    (hs : ∀ e ∈ d.expressions, Spells (spell e) e) :
    ∀ a ∈ Node.nodesActions d.nodes, a.Spelled spell := by
  intro a ha
  refine ⟨fun e he => hs e ?_, Node.named_nodes h a ha⟩
  rw [expressions, Node.nodesExpressions_actions]
  exact List.mem_filterMap.2 ⟨a, ha, he⟩

/-- A document comes back from the template it is written as. -/
theorem parse_write_of_writable (h : Node.NodesWritable d.nodes)
    (limit : d.nesting ≤ Draft.blockLimit) (hs : ∀ e ∈ d.expressions, Spells (spell e) e) :
    ∃ d', parse (d.write spell) = .ok d' ∧ d'.unplaced = d.unplaced := by
  have spelled := spelled_actions h hs
  have tidy : Mark.Tidy (Node.marks d.nodes) := by
    have nothing : Mark.Tidy [] := trivial
    simpa [Node.marks] using Node.tidy_nodes h nothing (by simp)
  obtain ⟨found, cut, same⟩ := scan_write tidy spelled
  exact parse_of_actions cut (mapM_ofPart?_written same spelled) (Draft.run?_nodesActions h limit)

end Document

end Stencil
