import Stencil.Document.Parser
import Stencil.Proofs.Expr.Parsed

/-! What the statements of a template make: every node lies inside a bounded number of blocks, and
every expression in it was read from tokens. An open block is judged by the node it would close to
now. -/
namespace Stencil

namespace Node

inductive Parsed : Nat → Node → Prop where
  | text (k p : Nat) (content : String) : Parsed k (.text p content)
  | output (k p : Nat) {e : Expr} (escape : Bool) : e.Parsed → Parsed k (.output p e escape)
  | conditional {k : Nat} (p : Nat) {branches : List Branch} {otherwise : Option (List Node)} :
      k < Draft.blockLimit → branches ≠ [] → (∀ b ∈ branches, b.condition.Parsed) →
      (∀ b ∈ branches, ∀ n ∈ b.body, Parsed (k + 1) n) →
      (∀ body, otherwise = some body → ∀ n ∈ body, Parsed (k + 1) n) →
      Parsed k (.conditional p branches otherwise)
  | loop {k : Nat} (p : Nat) (item : String) {collection : Expr} {body : List Node} :
      k < Draft.blockLimit → collection.Parsed → (∀ n ∈ body, Parsed (k + 1) n) →
      Parsed k (.loop p item collection body)

end Node

namespace OpenBlock

/-- Nodes may be put into the body of an open block one after another. -/
theorem close_add_parsed {k : Nat} {block : OpenBlock} {node : Node} (h : block.close.Parsed k)
    (hn : node.Parsed (k + 1)) :
    Node.Parsed k { block with body := block.body ++ [node] }.close := by
  obtain ⟨place, head, body⟩ := block
  cases head with
  | branch done condition =>
    cases h with
    | conditional _ limit _ conditions bodies others =>
      simp only [List.forall_mem_append, List.forall_mem_singleton] at conditions bodies
      refine .conditional _ limit (by simp) ?_ ?_ (by simp)
      · exact List.forall_mem_append.2 ⟨conditions.1, by simpa using conditions.2⟩
      · simp only [List.forall_mem_append, List.forall_mem_singleton]
        exact ⟨bodies.1, List.forall_mem_append.2 ⟨bodies.2, by simpa using hn⟩⟩
  | otherwise done =>
    cases h with
    | conditional _ limit nonempty conditions bodies others =>
      refine .conditional _ limit nonempty conditions bodies ?_
      intro x given
      cases given
      exact List.forall_mem_append.2 ⟨others _ rfl, by simpa using hn⟩
  | loop item collection =>
    cases h with
    | loop _ _ limit hc nodes =>
      exact .loop _ _ limit hc (List.forall_mem_append.2 ⟨nodes, by simpa using hn⟩)

end OpenBlock

namespace Draft

def BlocksParsed : List OpenBlock → Prop
  | [] => True
  | block :: rest => block.close.Parsed rest.length ∧ BlocksParsed rest

structure Parsed (d : Draft) : Prop where
  blocks : BlocksParsed d.blocks
  nodes : ∀ n ∈ d.nodes, n.Parsed 0

theorem empty_parsed : empty.Parsed := ⟨trivial, by simp [empty]⟩

theorem add_parsed {d : Draft} {node : Node} (h : d.Parsed) (hn : node.Parsed d.blocks.length) :
    (d.add node).Parsed := by
  obtain ⟨blocks, nodes⟩ := d
  cases blocks with
  | nil => exact ⟨trivial, List.forall_mem_append.2 ⟨h.nodes, by simpa using hn⟩⟩
  | cons block rest => exact ⟨⟨OpenBlock.close_add_parsed h.blocks.1 hn, h.blocks.2⟩, h.nodes⟩

theorem push_parsed {d d' : Draft} {block : OpenBlock} (h : d.Parsed)
    (hb : d.blocks.length < blockLimit → block.close.Parsed d.blocks.length)
    (hp : d.push block = .ok d') :
    d'.Parsed := by
  unfold push at hp
  split at hp
  · rename_i limit
    cases hp
    exact ⟨⟨hb limit, h.blocks⟩, h.nodes⟩
  · cases hp

/-- The branches told so far, seen as a conditional of their own. -/
theorem turn_parsed {d : Draft} {word : Token} {place : Location} {done : List Branch}
    {around : List OpenBlock}
    (h : d.Parsed) (ht : d.turn word = .ok (place, done, around)) :
    Node.Parsed around.length (.conditional place.offset done none) ∧ BlocksParsed around := by
  unfold turn at ht
  split at ht
  · cases ht
  · rename_i block rest hblocks
    have hb := h.blocks
    rw [hblocks] at hb
    split at ht
    · rename_i earlier condition hhead
      cases ht
      have hc := hb.1
      simp only [OpenBlock.close, hhead] at hc
      exact ⟨hc, hb.2⟩
    · cases ht
    · cases ht

theorem statement_parsed {d d' : Draft} {stop : Location} {tokens : List Token} (h : d.Parsed)
    (hs : d.statement stop tokens = .ok d') : d'.Parsed := by
  unfold statement at hs
  split at hs
  · cases hs
  · split at hs
    · simp only [Outcome.bind_eq_ok_iff] at hs
      obtain ⟨condition, hc, hp⟩ := hs
      refine push_parsed h (fun limit => ?_) hp
      exact .conditional _ limit (by simp) (by simpa using Expr.ofTokens_parsed hc) (by simp)
        (by simp)
    · simp only [Outcome.bind_eq_ok_iff, Prod.exists] at hs
      obtain ⟨item, more, _, _, after, _, collection, hc, hp⟩ := hs
      refine push_parsed h (fun limit => ?_) hp
      exact .loop _ _ limit (Expr.ofTokens_parsed hc) (by simp)
    · simp only [Outcome.bind_eq_ok_iff, Outcome.pure_eq_ok, Prod.exists] at hs
      obtain ⟨place, done, around, ht, condition, hc, hs⟩ := hs
      cases hs
      obtain ⟨hdone, haround⟩ := turn_parsed h ht
      cases hdone with
      | conditional _ limit _ conditions bodies _ =>
        refine ⟨⟨.conditional _ limit (by simp) ?_ ?_ (by simp), haround⟩, h.nodes⟩
        · exact List.forall_mem_append.2 ⟨conditions, by simpa using Expr.ofTokens_parsed hc⟩
        · exact List.forall_mem_append.2 ⟨bodies, by simp⟩
    · simp only [Outcome.bind_eq_ok_iff, Outcome.pure_eq_ok, Prod.exists] at hs
      obtain ⟨_, _, place, done, around, ht, hs⟩ := hs
      cases hs
      obtain ⟨hdone, haround⟩ := turn_parsed h ht
      cases hdone with
      | conditional _ limit nonempty conditions bodies _ =>
        exact ⟨⟨.conditional _ limit nonempty conditions bodies (by simp), haround⟩, h.nodes⟩
    · simp only [Outcome.bind_eq_ok_iff] at hs
      obtain ⟨_, _, hs⟩ := hs
      split at hs
      · cases hs
      · rename_i block around hblocks
        have hb := h.blocks
        rw [hblocks] at hb
        cases hs
        exact add_parsed ⟨hb.2, h.nodes⟩ hb.1
    · cases hs

theorem part_parsed {d d' : Draft} {p : Part} (h : d.Parsed) (hp : d.part p = .ok d') :
    d'.Parsed := by
  unfold part at hp
  split at hp
  · cases hp
    exact add_parsed h (.text _ _ _)
  · simp only [Outcome.bind_eq_ok_iff, Prod.exists] at hp
    obtain ⟨tokens, stop, _, hp⟩ := hp
    split at hp
    · exact statement_parsed h hp
    · simp only [Outcome.bind_eq_ok_iff, Outcome.pure_eq_ok] at hp
      obtain ⟨e, he, hp⟩ := hp
      cases hp
      exact add_parsed h (.output _ _ _ (Expr.ofTokens_parsed he))
    · simp only [Outcome.bind_eq_ok_iff, Outcome.pure_eq_ok] at hp
      obtain ⟨e, he, hp⟩ := hp
      cases hp
      exact add_parsed h (.output _ _ _ (Expr.ofTokens_parsed he))

end Draft

namespace Document

def Parsed (d : Document) : Prop := ∀ n ∈ d.nodes, n.Parsed 0

theorem ofPartsCounted_parsed {d : Draft} {count : Nat} {parts : List Part} {doc : Document}
    (h : d.Parsed) (hd : (ofPartsCounted d count parts).1 = .ok doc) : doc.Parsed := by
  induction parts generalizing d count with
  | nil =>
    simp only [ofPartsCounted, Draft.finish] at hd
    split at hd
    · cases hd
      exact h.nodes
    · cases hd
  | cons p rest ih =>
    simp only [ofPartsCounted] at hd
    split at hd
    · cases hd
    · rename_i d' hp
      exact ih (Draft.part_parsed h hp) hd

theorem parse_parsed {source : String} {doc : Document} (h : parse source = .ok doc) :
    doc.Parsed := by
  unfold parse at h
  split at h
  · cases h
  · exact ofPartsCounted_parsed Draft.empty_parsed h

end Document

end Stencil
