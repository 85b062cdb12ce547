import Stencil.Proofs.Document.Written

/-! The grammar of statements. A document is read from the template it is written as, a template
that is read is written with the same texts and tags again, and tags that can be read alone are
accepted where they are well nested. -/
namespace Stencil
open Outcome

namespace Token

theorem Spelled.name_of_identifier {text : List Char} (h : Spelled false .identifier text) :
    IsName text ∧ Keyword.ofText? (String.ofList text) = none := by
  have other : ∀ p ∈ symbols, p.1 ≠ .identifier := by decide
  cases h with
  | symbol found => exact absurd rfl (other _ (mem_symbols found))
  | name isName plain => exact ⟨isName, plain rfl⟩

theorem lexed_expect {afterDot : Bool} {kind : Kind} {tokens rest : List Token} {t : Token}
    (h : Lexed afterDot tokens)
    (he : Expr.expect .start kind tokens = .ok (t, rest)) :
    Spelled afterDot kind t.text.toList ∧ Lexed (kind == .dot) rest := by
  cases tokens with
  | nil => cases he
  | cons u more =>
    rw [Expr.expect] at he
    split at he
    · rename_i same
      cases he
      rw [← same]
      exact h
    · cases he

end Token

namespace Action

def Read (a : Action) : Prop := (∀ e ∈ a.expression?, ∃ text, Spells text e) ∧ a.Named

theorem read_of_silent {a : Action} (silent : a.expression? = none) (named : a.Named) : a.Read := by
  refine ⟨fun e he => ?_, named⟩
  rw [silent] at he
  cases he

theorem read_of_made {tokens : List Token} {e : Expr} {a : Action}
    (lexed : Token.Lexed false tokens) (made : (Expr.ofTokens .start tokens).toOption = some e)
    (carried : a.expression? = some e) (named : a.Named) : a.Read := by
  refine ⟨fun e' he' => ?_, named⟩
  obtain rfl : e = e' := Option.some.inj (carried.symm.trans he')
  exact ⟨_, spells_spread lexed (eq_ok_of_toOption made)⟩

theorem read_of_ofTokens? {tokens : List Token} {a : Action} (lexed : Token.Lexed false tokens)
    (h : ofTokens? tokens = some a) : a.Read := by
  cases tokens with
  | nil => cases h
  | cons t rest =>
    obtain ⟨kind, text, place, width⟩ := t
    obtain ⟨-, lexed⟩ := lexed
    cases kind with
    | keyword word =>
      cases word with
      | if_ =>
        obtain ⟨c, made, rfl⟩ := Option.map_eq_some_iff.1 h
        exact read_of_made lexed made rfl trivial
      | elsif =>
        obtain ⟨c, made, rfl⟩ := Option.map_eq_some_iff.1 h
        exact read_of_made lexed made rfl trivial
      | else_ =>
        obtain ⟨-, -, rfl⟩ := Option.map_eq_some_iff.1 h
        exact read_of_silent rfl trivial
      | end_ =>
        obtain ⟨-, -, rfl⟩ := Option.map_eq_some_iff.1 h
        exact read_of_silent rfl trivial
      | for_ =>
        simp only [ofTokens?, Option.bind_eq_bind, Option.bind_eq_some_iff, Option.pure_def,
          Option.some.injEq] at h
        obtain ⟨⟨item, rest₁⟩, first, ⟨word, rest₂⟩, second, collection, made, rfl⟩ := h
        obtain ⟨spelled, lexed₁⟩ := Token.lexed_expect lexed (eq_ok_of_toOption first)
        obtain ⟨-, lexed₂⟩ := Token.lexed_expect lexed₁ (eq_ok_of_toOption second)
        have named := spelled.name_of_identifier
        rw [String.ofList_toList] at named
        exact read_of_made lexed₂ made rfl named
      | in_ | true | false | nil => cases h
    | _ => cases h

/-- Whatever a part says can be written. -/
theorem read_of_ofPart? {p : Part} {a : Action} (h : ofPart? p = some a) : a.Read := by
  cases p with
  | text place content =>
    cases h
    exact read_of_silent rfl trivial
  | tag kind place code =>
    simp only [ofPart?, Option.bind_eq_bind, Option.bind_eq_some_iff] at h
    obtain ⟨tokens, scanned, told⟩ := h
    have lexed := Token.scanned_lexed (eq_ok_of_toOption scanned)
    cases kind with
    | statement => exact read_of_ofTokens? lexed told
    | escaped =>
      obtain ⟨e, made, rfl⟩ := Option.map_eq_some_iff.1 told
      exact read_of_made lexed made rfl trivial
    | raw =>
      obtain ⟨e, made, rfl⟩ := Option.map_eq_some_iff.1 told
      exact read_of_made lexed made rfl trivial

theorem expression?_unplaced (a : Action) :
    a.unplaced.expression? = a.expression?.map Expr.unplaced := by cases a <;> rfl

/-- Positions do not count for this. -/
theorem read_of_unplaced {a : Action} (h : a.unplaced.Read) : a.Read := by
  obtain ⟨texts, named⟩ := h
  refine ⟨fun e he => ?_, ?_⟩
  · obtain ⟨text, position, e', parsed, same⟩ :=
      texts e.unplaced (by rw [expression?_unplaced, he]; rfl)
    exact ⟨text, position, e', parsed, same.trans e.unplaced_unplaced⟩
  · cases a with
    | for_ item collection => exact named
    | _ => trivial

end Action

namespace Document
variable {source : String} {d : Document}

theorem ofSource_eq_ok_iff {source : String} {parts : List Part} {stop : Location} :
    Part.ofSource source = .ok (parts, stop) ↔
      Part.scan .start source.toList = .ok parts ∧ Location.start.after source.toList = stop := by
  rw [Part.ofSource]
  cases Part.scan .start source.toList with
  | ok found => simp
  | error fault => simp

/-- The texts and tags of a template that parses are those of its document. -/
theorem nodesActions_of_parse (h : parse source = .ok d) :
    ∃ parts, Part.scan .start source.toList = .ok parts ∧
      parts.mapM Action.ofPart? = some ((Node.nodesActions d.nodes).map Action.unplaced) ∧
      Draft.empty.run? ((Node.nodesActions d.nodes).map Action.unplaced) =
        some ⟨[], d.unplaced.nodes⟩ := by
  obtain ⟨parts, actions, cut, read, ran⟩ := actions_of_parse h
  obtain rfl : (Node.nodesActions d.nodes).map Action.unplaced = actions := by
    rw [← Node.nodesActions_unplaced]
    exact Draft.nodesActions_of_run? ran
  exact ⟨parts, cut, read, ran⟩

theorem marks_of_parse {parts : List Part} (h : parse source = .ok d)
    (cut : Part.scan .start source.toList = .ok parts) :
    parts.map Part.mark = Node.marks d.nodes := by
  obtain ⟨parts', cut', read, -⟩ := nodesActions_of_parse h
  obtain rfl : parts = parts' := Except.ok.inj (cut.symm.trans cut')
  rw [Action.marks_of_mapM read, ← Node.nodesActions_unplaced]
  exact Node.marks_unplaced d.nodes

theorem read_of_parse (h : parse source = .ok d) : ∀ a ∈ Node.nodesActions d.nodes, a.Read := by
  obtain ⟨parts, -, read, -⟩ := nodesActions_of_parse h
  intro a ha
  obtain ⟨p, -, hp⟩ := exists_of_mapM read (List.mem_map_of_mem ha)
  exact Action.read_of_unplaced (Action.read_of_ofPart? hp)

/-- The expressions of a template that parses have texts. -/
theorem exists_texts (h : parse source = .ok d) :
    ∃ spell : Expr → String, ∀ e ∈ d.expressions, Spells (spell e) e := by
  have texts : ∀ e, ∃ text, e ∈ d.expressions → Spells text e := by
    intro e
    by_cases he : e ∈ d.expressions
    · have carried := he
      rw [expressions, Node.nodesExpressions_actions] at carried
      obtain ⟨a, ha, hae⟩ := List.mem_filterMap.1 carried
      obtain ⟨text, spells⟩ := (read_of_parse h a ha).1 e hae
      exact ⟨text, fun _ => spells⟩
    · exact ⟨"", fun inside => absurd inside he⟩
  obtain ⟨spell, spells⟩ := Classical.skolem.1 texts
  exact ⟨spell, spells⟩

section Rewrite
variable {spell : Expr → String} (h : parse source = .ok d)
    (hs : ∀ e ∈ d.expressions, Spells (spell e) e)
include h hs

theorem spelled_of_parse : ∀ a ∈ Node.nodesActions d.nodes, a.Spelled spell := by
  intro a ha
  refine ⟨fun e he => hs e ?_, (read_of_parse h a ha).2⟩
  rw [expressions, Node.nodesExpressions_actions]
  exact List.mem_filterMap.2 ⟨a, ha, he⟩

theorem scan_write_of_parse : ∃ found, Part.scan .start (d.write spell).toList = .ok found ∧
    found.map Part.unplaced = (d.parts spell).map Part.unplaced := by
  obtain ⟨parts, cut, -, -⟩ := nodesActions_of_parse h
  refine scan_write ?_ (spelled_of_parse h hs)
  rw [← marks_of_parse h cut]
  exact ((Part.row_iff parts).1 (Part.scan_eq_ok_iff.1 cut).1).1

/-- A template that parses is written with the same texts and tags again. -/
theorem marks_write_of_parse : ∃ parts stop parts' stop', Part.ofSource source = .ok (parts, stop) ∧
    Part.ofSource (d.write spell) = .ok (parts', stop') ∧
    parts'.map Part.mark = parts.map Part.mark := by
  obtain ⟨parts, cut, -, -⟩ := nodesActions_of_parse h
  obtain ⟨found, cut', same⟩ := scan_write_of_parse h hs
  refine ⟨parts, _, found, _, ofSource_eq_ok_iff.2 ⟨cut, rfl⟩, ofSource_eq_ok_iff.2 ⟨cut', rfl⟩, ?_⟩
  have blind : Part.mark = Part.mark ∘ Part.unplaced := funext fun p => p.mark_unplaced.symm
  rw [marks_of_parse h cut, ← marks_parts spell d, blind, ← List.map_map, same, List.map_map]

end Rewrite

end Document

def Part.Taken (p : Part) : Prop := ∃ before after, Draft.part before p = .ok after

theorem Part.Taken.ofPart? {p : Part} (h : p.Taken) : ∃ a, Action.ofPart? p = some a := by
  obtain ⟨before, after, taken⟩ := h
  have step := before.part_unplaced p
  rw [taken] at step
  obtain ⟨a, ha, -⟩ := Option.bind_eq_some_iff.1 step.symm
  exact ⟨a, ha⟩

namespace Document

theorem wellNested_of_parse {source : String} {d : Document} (h : parse source = .ok d) :
    Mark.WellNested Draft.blockLimit (Node.marks d.nodes) :=
  Node.wellNested_nodes fun n hn _ hr => (parse_parsed h n hn).wellNested hr

/-- Where the row is well nested, the blocks of all actions are closed. -/
theorem run?_of_wellNested {as : List Action}
    (h : Mark.WellNested Draft.blockLimit (as.map Action.mark)) :
    ∃ nodes, Draft.empty.run? as = some ⟨[], nodes⟩ := by
  have shapes : (Draft.empty.run? as).map Draft.shape = some [] := by
    rw [Draft.shape_run?, ← List.append_nil (as.map _),
      Shape.run_of_wellNested h (by simp [Draft.shape, Draft.empty])]
    rfl
  obtain ⟨⟨blocks, nodes⟩, ran, closed⟩ := Option.map_eq_some_iff.1 shapes
  obtain rfl : blocks = [] := List.map_eq_nil_iff.1 closed
  exact ⟨nodes, ran⟩

theorem parse_of_wellNested {source : String} {parts : List Part}
    (cut : Part.scan .start source.toList = .ok parts)
    (h : ∀ p ∈ parts, p.Taken) (nested : Mark.WellNested Draft.blockLimit (parts.map Part.mark)) :
    ∃ d, parse source = .ok d := by
  obtain ⟨as, read⟩ := exists_mapM fun p hp => (h p hp).ofPart?
  rw [Action.marks_of_mapM read] at nested
  obtain ⟨nodes, ran⟩ := run?_of_wellNested nested
  obtain ⟨d, parsed, -⟩ := parse_of_actions cut read ran
  exact ⟨d, parsed⟩

/-- The statement grammar, both ways: a writable document comes back from the template it is written
as; what parses can be written, and then has the same texts and tags; and tags that can each be
taken are accepted together exactly if they are well nested. -/
theorem statement_grammar :
    (∀ (d : Document) (spell : Expr → String), Node.NodesWritable d.nodes → d.nesting ≤ 128 →
      (∀ e ∈ d.expressions, Spells (spell e) e) →
        ∃ d', parse (d.write spell) = .ok d' ∧ d'.unplaced = d.unplaced) ∧
    (∀ source d, parse source = .ok d →
      (∃ spell : Expr → String, ∀ e ∈ d.expressions, Spells (spell e) e) ∧
      ∀ spell : Expr → String, (∀ e ∈ d.expressions, Spells (spell e) e) →
        ∃ parts stop parts' stop', Part.ofSource source = .ok (parts, stop) ∧
          Part.ofSource (d.write spell) = .ok (parts', stop') ∧
          parts'.map Part.mark = parts.map Part.mark) ∧
    (∀ source parts stop, Part.ofSource source = .ok (parts, stop) → (∀ p ∈ parts, p.Taken) →
      ((∃ d, parse source = .ok d) ↔ Mark.WellNested 128 (parts.map Part.mark))) := by
  refine ⟨fun d spell h limit hs => parse_write_of_writable h limit hs,
    fun source d h => ⟨exists_texts h, fun spell hs => marks_write_of_parse h hs⟩, ?_⟩
  intro source parts stop cut taken
  obtain ⟨cut, -⟩ := ofSource_eq_ok_iff.1 cut
  constructor
  · intro given
    obtain ⟨d, h⟩ := given
    rw [marks_of_parse h cut]
    exact wellNested_of_parse h
  · exact fun nested => parse_of_wellNested cut taken nested

end Document

end Stencil
