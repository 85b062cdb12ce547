import Mathlib
import Stencil.Document.Parser
import Stencil.Proofs.Document.Hole
import Stencil.Proofs.Expr.Points
import Stencil.Proofs.Part.Places

/-! Where the nodes of a document stand. A block has the place of the word that opened it, which is
known long before the block is closed; until then it is judged by the node it would close to now,
and everything in it stands before the end of what has been read. -/
namespace Stencil

namespace Node

def position : Node → Nat
  | text p _ | output p _ _ | conditional p _ _ | loop p _ _ _ => p
  | foreign _ => 0

/-- What is written where a node stands: all of a text, the delimiter of an output, the word of a
block. -/
def lexeme : Node → List Char
  | text _ content => content.toList
  | output _ _ escape => if escape then TagKind.escaped.opener else TagKind.raw.opener
  | conditional .. => Keyword.if_.text.toList
  | loop .. => Keyword.for_.text.toList
  | foreign _ => []

def children : Node → List Node
  | conditional _ branches otherwise => branches.flatMap Branch.body ++ otherwise.getD []
  | loop _ _ _ body => body
  | text .. | output .. | foreign _ => []

def ownExpressions : Node → List Expr
  | output _ e _ => [e]
  | conditional _ branches _ => branches.map Branch.condition
  | loop _ _ collection _ => [collection]
  | text .. | foreign _ => []

def Ascending (nodes : List Node) : Prop := (nodes.map position).Pairwise (· < ·)

/-- The node and its expressions point at their own source, and the nodes in its bodies stand behind
the word that opened it, one behind another. -/
structure Points (text : List Char) (n : Node) : Prop where
  nonempty : n.lexeme ≠ []
  lexeme : n.lexeme <+: text.drop n.position
  expressions : ∀ e ∈ n.ownExpressions, ∀ part ∈ e.inOrder, part.Points text
  ascending : Ascending n.children
  behind : ∀ c ∈ n.children, n.position + n.lexeme.length ≤ c.position

inductive Throughout (P : Node → Prop) : Node → Prop where
  | intro {n : Node} : P n → (∀ c ∈ n.children, Throughout P c) → Throughout P n

variable {P : Node → Prop} {text : List Char} {n m c : Node} {nodes : List Node}

theorem Throughout.root (h : n.Throughout P) : P n := by
  cases h with
  | intro own _ => exact own

theorem Throughout.child (h : n.Throughout P) (hc : c ∈ n.children) : c.Throughout P := by
  cases h with
  | intro _ deeper => exact deeper c hc

theorem Among.of_throughout (inside : n.Among nodes) (h : ∀ m ∈ nodes, m.Throughout P) : P n := by
  induction inside with
  | here inside => exact (h n inside).root
  | loop block _ ih => exact ih fun m hm => (h _ block).child hm
  | branch block taken _ ih =>
    exact ih fun m hm =>
      (h _ block).child (List.mem_append_left _ (List.mem_flatMap.2 ⟨_, taken, hm⟩))
  | fallback block _ ih => exact ih fun m hm => (h _ block).child (List.mem_append_right _ hm)

theorem ascending_concat (h : Ascending nodes) (later : ∀ m ∈ nodes, m.position < n.position) :
    Ascending (nodes ++ [n]) := by
  rw [Ascending, List.map_append, List.pairwise_append]
  refine ⟨h, List.pairwise_singleton _ _, ?_⟩
  simpa using later

/-- A block that is told something more keeps its place and its nodes. -/
theorem Throughout.retold (h : n.Throughout (Points text)) (position : m.position = n.position)
    (lexeme : m.lexeme = n.lexeme) (children : m.children = n.children)
    (expressions : ∀ e ∈ m.ownExpressions, ∀ part ∈ e.inOrder, part.Points text) :
    m.Throughout (Points text) := by
  obtain ⟨nonempty, written, -, ascending, behind⟩ := h.root
  refine .intro ⟨?_, ?_, expressions, ?_, ?_⟩ ?_
  · rwa [lexeme]
  · rwa [lexeme, position]
  · rwa [children]
  · rwa [children, position, lexeme]
  · rw [children]
    exact fun c => h.child

/-- A block gets one more node behind those in it. -/
theorem Throughout.extended (h : n.Throughout (Points text)) (position : m.position = n.position)
    (lexeme : m.lexeme = n.lexeme) (expressions : m.ownExpressions = n.ownExpressions)
    (children : m.children = n.children ++ [c]) (hc : c.Throughout (Points text))
    (opened : n.position + n.lexeme.length ≤ c.position)
    (later : ∀ m ∈ n.children, m.position < c.position) :
    m.Throughout (Points text) := by
  obtain ⟨nonempty, written, own, ascending, behind⟩ := h.root
  refine .intro ⟨?_, ?_, ?_, ?_, ?_⟩ ?_
  · rwa [lexeme]
  · rwa [lexeme, position]
  · rwa [expressions]
  · rw [children]
    exact ascending_concat ascending later
  · rw [children, position, lexeme]
    exact List.forall_mem_append.2 ⟨behind, List.forall_mem_singleton.2 opened⟩
  · rw [children]
    exact List.forall_mem_append.2 ⟨fun c => h.child, List.forall_mem_singleton.2 hc⟩

/-- A node without any inside. -/
theorem Points.throughout (h : n.Points text) (none : n.children = []) :
    n.Throughout (Points text) :=
  .intro h (by simp [none])

end Node

namespace OpenBlock
variable (block : OpenBlock) (node : Node)

def add : OpenBlock := { block with body := block.body ++ [node] }

theorem add_close_position : (block.add node).close.position = block.close.position := by
  obtain ⟨place, head, body⟩ := block
  cases head <;> rfl

theorem add_close_lexeme : (block.add node).close.lexeme = block.close.lexeme := by
  obtain ⟨place, head, body⟩ := block
  cases head <;> rfl

theorem add_close_ownExpressions :
    (block.add node).close.ownExpressions = block.close.ownExpressions := by
  obtain ⟨place, head, body⟩ := block
  cases head <;> simp [add, close, Node.ownExpressions]

theorem add_close_children : (block.add node).close.children = block.close.children ++ [node] := by
  obtain ⟨place, head, body⟩ := block
  cases head <;> simp [add, close, Node.children]

end OpenBlock

namespace Draft
open Node (Points Throughout Ascending ascending_concat)
variable {text : List Char} {start stop : Nat} {d d' : Draft} {blocks : List OpenBlock}
    {nodes : List Node}
  {block : OpenBlock} {node : Node} {tokens : List Token} {place : Location}

/-- All that has been read stands before `stop`, and all around an open block before the word that
opened it. -/
def BlocksAnchored (text : List Char) (nodes : List Node) : Nat → List OpenBlock → Prop
  | stop, [] =>
    Ascending nodes ∧ (∀ n ∈ nodes, n.position < stop) ∧ ∀ n ∈ nodes, n.Throughout (Points text)
  | stop, block :: rest => block.close.Throughout (Points text) ∧
      block.close.position + block.close.lexeme.length ≤ stop ∧
      (∀ c ∈ block.close.children, c.position < stop) ∧
      BlocksAnchored text nodes block.close.position rest

def Anchored (text : List Char) (stop : Nat) (d : Draft) : Prop :=
  BlocksAnchored text d.nodes stop d.blocks

theorem BlocksAnchored.mono {stop' : Nat} (h : BlocksAnchored text nodes stop blocks)
    (le : stop ≤ stop') :
    BlocksAnchored text nodes stop' blocks := by
  cases blocks with
  | nil => exact ⟨h.1, fun n hn => (h.2.1 n hn).trans_le le, h.2.2⟩
  | cons block rest =>
    obtain ⟨own, opened, inside, around⟩ := h
    exact ⟨own, opened.trans le, fun c hc => (inside c hc).trans_le le, around⟩

theorem add_anchored (h : d.Anchored text start) (hn : node.Throughout (Points text))
    (behind : start ≤ node.position) (before : node.position < stop) :
    (d.add node).Anchored text stop := by
  obtain ⟨blocks, nodes⟩ := d
  cases blocks with
  | nil =>
    obtain ⟨ascending, inside, points⟩ := h
    refine ⟨?_, ?_, List.forall_mem_append.2 ⟨points, List.forall_mem_singleton.2 hn⟩⟩
    · exact ascending_concat ascending fun m hm => (inside m hm).trans_le behind
    · exact List.forall_mem_append.2
        ⟨fun n hn => ((inside n hn).trans_le behind).trans before,
          List.forall_mem_singleton.2 before⟩
  | cons block rest =>
    obtain ⟨own, opened, inside, around⟩ := h
    have later : ∀ c ∈ block.close.children, c.position < node.position :=
      fun c hc => (inside c hc).trans_le behind
    have extended : (block.add node).close.Throughout (Points text) :=
      own.extended (block.add_close_position node) (block.add_close_lexeme node)
        (block.add_close_ownExpressions node)
        (block.add_close_children node) hn (opened.trans behind) later
    have anchored : BlocksAnchored text nodes stop (block.add node :: rest) := by
      rw [BlocksAnchored, OpenBlock.add_close_position, OpenBlock.add_close_lexeme,
        OpenBlock.add_close_children]
      refine ⟨extended, by omega, ?_, around⟩
      exact List.forall_mem_append.2 ⟨fun c hc => (later c hc).trans before,
        List.forall_mem_singleton.2 before⟩
    exact anchored

/-- A block is opened by its word, and has no nodes yet. -/
theorem push_anchored {t : Token} {word : Keyword} (h : d.Anchored text start)
    (own : t.Stands text start stop) (hk : t.kind = .keyword word)
    (position : block.close.position = t.place.offset)
    (lexeme : block.close.lexeme = word.text.toList) (none : block.close.children = [])
    (expressions : ∀ e ∈ block.close.ownExpressions, ∀ part ∈ e.inOrder, part.Points text)
    (hp : d.push block = .ok d') : d'.Anchored text stop := by
  obtain ⟨written, inside⟩ := own.keyword hk
  have points : block.close.Points text := by
    refine ⟨?_, ?_, expressions, ?_, ?_⟩
    · rw [lexeme]
      cases word <;> simp [Keyword.text]
    · rwa [lexeme, position]
    · rw [none]
      exact .nil
    · simp [none]
  unfold push at hp
  split at hp
  · cases hp
    refine ⟨points.throughout none, ?_, by simp [none], BlocksAnchored.mono h ?_⟩
    · rwa [position, lexeme]
    · rw [position]
      exact own.behind
  · cases hp

/-- An open conditional may be told another branch: it keeps its word and its nodes. -/
theorem turn_anchored {word : Token} {done : List Branch} {around : List OpenBlock}
    (h : d.Anchored text start) (ht : d.turn word = .ok (place, done, around))
    (position : block.close.position = place.offset)
    (lexeme : block.close.lexeme = Keyword.if_.text.toList)
    (children : block.close.children = done.flatMap Branch.body)
    (expressions : ∀ e ∈ block.close.ownExpressions,
      e ∈ done.map Branch.condition ∨ ∀ part ∈ e.inOrder, part.Points text) :
    Anchored text start ⟨block :: around, d.nodes⟩ := by
  unfold turn at ht
  split at ht
  · cases ht
  · rename_i told rest blocks
    rw [Anchored, blocks] at h
    obtain ⟨own, opened, inside, outside⟩ := h
    split at ht
    · rename_i earlier condition head
      cases ht
      -- what has been told so far is a conditional of its own, and the new block has its place and
      -- its nodes
      have closes : told.close =
          .conditional told.place.offset (earlier ++ [.mk condition told.body]) none := by
        rw [OpenBlock.close, head]
      rw [closes] at own opened inside outside
      have nodes : block.close.children =
          (Node.conditional told.place.offset (earlier ++ [.mk condition told.body])
            none).children :=
        children.trans (List.append_nil _).symm
      refine ⟨own.retold position lexeme nodes ?_, ?_, ?_, ?_⟩
      · intro e he
        exact (expressions e he).elim (own.root.expressions e) id
      · rw [position, lexeme]
        exact opened
      · rw [nodes]
        exact inside
      · rw [position]
        exact outside
    · cases ht
    · cases ht

theorem statement_anchored {location : Location} (h : d.Anchored text start)
    (ht : ∀ t ∈ tokens, t.Stands text start stop) (le : start ≤ stop)
    (hs : d.statement location tokens = .ok d') : d'.Anchored text stop := by
  unfold statement at hs
  split at hs
  · cases hs
  · rename_i t rest
    obtain ⟨own, others⟩ := List.forall_mem_cons.1 ht
    split at hs
    · rename_i hk
      simp only [Outcome.bind_eq_ok_iff] at hs
      obtain ⟨condition, hc, hp⟩ := hs
      exact push_anchored h own hk rfl rfl rfl
        (List.forall_mem_singleton.2 (Expr.points_of_ofTokens hc others)) hp
    · rename_i hk
      simp only [Outcome.bind_eq_ok_iff, Prod.exists, Expr.expect_eq_ok_iff] at hs
      obtain ⟨item, _, ⟨-, rfl⟩, word, more, ⟨-, rfl⟩, collection, hc, hp⟩ := hs
      have behind : ∀ t ∈ more, t.Stands text start stop := fun t ht =>
        others t (List.mem_cons_of_mem item (List.mem_cons_of_mem word ht))
      exact push_anchored h own hk rfl rfl rfl
        (List.forall_mem_singleton.2 (Expr.points_of_ofTokens hc behind)) hp
    · simp only [Outcome.bind_eq_ok_iff, Outcome.pure_eq_ok, Prod.exists] at hs
      obtain ⟨place, done, around, ht, condition, hc, hs⟩ := hs
      cases hs
      have points := Expr.points_of_ofTokens hc others
      refine BlocksAnchored.mono (turn_anchored h ht rfl rfl ?_ ?_) le
      · simp [OpenBlock.close, Node.children]
      · intro e he
        simp only [OpenBlock.close, Node.ownExpressions, List.map_append, List.mem_append,
          List.map_cons, List.map_nil, List.mem_singleton] at he
        refine he.imp_right fun same => ?_
        rw [same]
        exact points
    · simp only [Outcome.bind_eq_ok_iff, Outcome.pure_eq_ok, Prod.exists] at hs
      obtain ⟨_, _, place, done, around, ht, hs⟩ := hs
      cases hs
      refine BlocksAnchored.mono (turn_anchored h ht rfl rfl ?_ fun e he => .inl he) le
      simp [OpenBlock.close, Node.children]
    · simp only [Outcome.bind_eq_ok_iff] at hs
      obtain ⟨_, _, hs⟩ := hs
      split at hs
      · cases hs
      · rename_i block around blocks
        rw [Anchored, blocks] at h
        cases hs
        -- the block takes its place among the nodes around it, all of which stand before its word
        obtain ⟨closed, opened, -, outside⟩ := h
        have nonempty := List.length_pos_iff.2 closed.root.nonempty
        exact add_anchored (d := ⟨around, _⟩) outside closed (le_refl _) (by omega)
    · cases hs

theorem part_anchored {p : Part} {parts : List Part} {front rest : List Char}
    (h : d.Anchored text front.length) (row : Part.Row (p :: parts))
    (whole : text = front ++ p.source ++ rest) (hplace : p.place = Location.start.after front)
    (hp : d.part p = .ok d') :
    d'.Anchored text (front ++ p.source).length := by
  have offset : p.place.offset = front.length := by
    rw [hplace, Location.after_offset, Location.start, Nat.zero_add]
  have here : text.drop front.length = p.source ++ rest := by
    rw [whole, List.append_assoc, List.drop_left]
  have fresh (n : Node) (position : n.position = front.length) (lexeme : n.lexeme <+: p.source)
      (nonempty : n.lexeme ≠ []) (none : n.children = [])
      (expressions : ∀ e ∈ n.ownExpressions, ∀ part ∈ e.inOrder, part.Points text) :
      (d.add n).Anchored text (front ++ p.source).length := by
    have written : n.lexeme <+: text.drop n.position := by
      rw [position, here]
      exact lexeme.trans (List.prefix_append _ _)
    have points : n.Points text :=
      ⟨nonempty, written, expressions, by rw [none]; exact .nil, by simp [none]⟩
    have longer := (List.length_pos_iff.2 nonempty).trans_le lexeme.length_le
    refine add_anchored h (points.throughout none) position.ge ?_
    rw [position, List.length_append]
    omega
  unfold part at hp
  split at hp
  · cases hp
    exact fresh _ offset List.prefix_rfl row.1.1 rfl (by simp [Node.ownExpressions])
  · rename_i kind place code
    simp only [Outcome.bind_eq_ok_iff, Prod.exists] at hp
    obtain ⟨tokens, stop, scanned, hp⟩ := hp
    have stands := Part.stands_of_ofCode whole hplace scanned
    split at hp
    · exact statement_anchored h stands (by simp) hp
    · simp only [Outcome.bind_eq_ok_iff, Outcome.pure_eq_ok] at hp
      obtain ⟨e, he, hp⟩ := hp
      cases hp
      have points := Expr.points_of_ofTokens he stands
      refine fresh _ offset ?_ (by simp [Node.lexeme, TagKind.opener]) rfl
        (List.forall_mem_singleton.2 points)
      rw [Part.source, List.append_assoc]
      exact List.prefix_append _ _
    · simp only [Outcome.bind_eq_ok_iff, Outcome.pure_eq_ok] at hp
      obtain ⟨e, he, hp⟩ := hp
      cases hp
      have points := Expr.points_of_ofTokens he stands
      refine fresh _ offset ?_ (by simp [Node.lexeme, TagKind.opener]) rfl
        (List.forall_mem_singleton.2 points)
      rw [Part.source, List.append_assoc]
      exact List.prefix_append _ _

end Draft

namespace Document
open Node (Points Throughout Ascending)

theorem ofPartsCounted_anchored {text front : List Char} {d : Draft} {count : Nat}
    {parts : List Part} {doc : Document} (h : d.Anchored text front.length) (row : Part.Row parts)
    (placed : Part.Placed (Location.start.after front) parts)
    (whole : text = front ++ Part.sources parts) (hd : (ofPartsCounted d count parts).1 = .ok doc) :
    Ascending doc.nodes ∧ ∀ n ∈ doc.nodes, n.Throughout (Points text) := by
  induction parts generalizing front d count with
  | nil =>
    simp only [ofPartsCounted, Draft.finish] at hd
    split at hd
    · rename_i blocks
      cases hd
      rw [Draft.Anchored, blocks] at h
      exact ⟨h.1, h.2.2⟩
    · cases hd
  | cons p rest ih =>
    simp only [ofPartsCounted] at hd
    split at hd
    · cases hd
    · rename_i d' hp
      obtain ⟨hplace, later⟩ := placed
      rw [Part.sources_cons, ← List.append_assoc] at whole
      rw [← Location.after_append] at later
      exact ih (Draft.part_anchored h row whole hplace hp) row.tail later whole hd

/-- In a document that a text is parsed to, every node points at its own source: where it stands,
the text goes on with all of a literal text, the delimiter of an output, the word of a block, and so
for the expressions in it, down to their leaves. The nodes of a document, and those in the bodies of
a block, stand one behind another, and the latter behind the word of the block. -/
theorem points_of_parse {source : String} {d : Document} (h : parse source = .ok d) :
    (∀ n : Node, n.Among d.nodes → n.Points source.toList) ∧ Ascending d.nodes := by
  unfold parse at h
  split at h
  · cases h
  · rename_i parts stop cut
    obtain ⟨row, placed, whole, -⟩ := Part.ofSource_eq_ok_iff.1 cut
    have empty : Draft.empty.Anchored source.toList ([] : List Char).length :=
      ⟨.nil, by simp [Draft.empty], by simp [Draft.empty]⟩
    obtain ⟨ascending, points⟩ := ofPartsCounted_anchored empty row placed whole.symm h
    exact ⟨fun n inside => inside.of_throughout points, ascending⟩

theorem points_of_parse_loop :
    ∃ d, parse "<% for x in xs %>a<%= x.1 + f('b') %><% end %>" = .ok d ∧
      (∀ n : Node, n.Among d.nodes →
        n.Points "<% for x in xs %>a<%= x.1 + f('b') %><% end %>".toList) ∧
      Ascending d.nodes := by
  have parsed : parse "<% for x in xs %>a<%= x.1 + f('b') %><% end %>" =
      .ok ⟨[.loop 3 "x" (.name 12 "xs") [.text 17 "a",
        .output 18 (.binary 26 .add (.index 24 (.name 22 "x") 1)
          (.call 28 "f" [.literal 30 (.string "b")])) true]]⟩ := by
    cbv
  exact ⟨_, parsed, points_of_parse parsed⟩

end Document
end Stencil
