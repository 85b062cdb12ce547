import Stencil.Document.Reader
import Stencil.Proofs.Document.Output
import Stencil.Proofs.Expr.Faults

/-! Reading at a desk beside reading a row of tokens: whatever was left on the desk, a tag that is
taken up has the outcome that its tokens have by themselves. -/
namespace Stencil
open Outcome
open EStateM (Result)
open Stencil.Expr (depthLimit startsWith)

namespace Desk
variable {d d' d'' : Desk} {p : Piece} {t : Token} {tokens : List Token}

def Tidy (d : Desk) : Prop := ∀ n, d.made ≤ n → d.heights.lookup n = none

def Knows (d : Desk) (p : Piece) : Prop := p.number < d.made ∧ d.height p = p.node.height

/-- What reading leaves as it is: all but the mark and what is made. -/
structure Later (d d' : Desk) : Prop where
  stop : d'.stop = d.stop
  depth : d'.depth = d.depth
  made : d.made ≤ d'.made
  kept : ∀ n < d.made, d'.heights.lookup n = d.heights.lookup n
  tidy : d.Tidy → d'.Tidy

theorem Later.refl (d : Desk) : Later d d := ⟨rfl, rfl, Nat.le_refl _, fun _ _ => rfl, id⟩

theorem Later.trans (h : Later d d') (h' : Later d' d'') : Later d d'' where
  stop := h'.stop.trans h.stop
  depth := h'.depth.trans h.depth
  made := Nat.le_trans h.made h'.made
  kept n hn := (h'.kept n (Nat.lt_of_lt_of_le hn h.made)).trans (h.kept n hn)
  tidy given := h'.tidy (h.tidy given)

theorem Knows.later (known : d.Knows p) (h : Later d d') : d'.Knows p := by
  refine ⟨Nat.lt_of_lt_of_le known.1 h.made, ?_⟩
  rw [height, h.kept _ known.1]
  exact known.2

theorem later_advanced (d : Desk) : Later d d.advanced := by
  unfold advanced
  split
  · exact ⟨rfl, rfl, Nat.le_refl _, fun _ _ => rfl, id⟩
  · exact .refl d

theorem rest_advanced (h : d.rest = t :: tokens) : d.advanced.rest = tokens := by
  have inside : d.position < d.tokens.length := by
    have some : 0 < d.rest.length := by simp [h]
    rw [rest, List.length_drop] at some
    omega
  have split : d.rest = d.tokens[d.position] :: d.tokens.drop (d.position + 1) :=
    List.drop_eq_getElem_cons inside
  rw [advanced, if_pos inside, rest]
  rw [h] at split
  exact (List.cons.inj split).2.symm

theorem rest_of_startsWith {kind : Token.Kind} (h : startsWith kind d.rest = true) :
    ∃ t : Token, t.kind = kind ∧ d.rest = t :: d.advanced.rest := by
  obtain ⟨t, same, behind⟩ := Expr.startsWith_iff.1 h
  exact ⟨t, same, by rwa [rest_advanced behind]⟩

end Desk

namespace Reads
variable {α β γ δ : Type} {d d' : Desk} {stop : Location} {size levels : Nat} {t : Token}
  {tokens : List Token} {m : Reads α} {k : α → Reads γ}

section Steps

@[simp] theorem run_get_bind (k : Desk → Reads α) (d : Desk) : (get >>= k).run d = (k d).run d :=
  rfl

@[simp] theorem run_advance_bind (k : Unit → Reads α) (d : Desk) :
    (advance >>= k).run d = (k ()).run d.advanced := rfl

@[simp] theorem run_ofExcept_bind (a : α) (k : α → Reads γ) (d : Desk) :
    (ofExcept (.ok a : Except ParseFault α) >>= k).run d = (k a).run d := rfl

theorem run_bind_of_ok {a : α} (h : m.run d = .ok a d') : (m >>= k).run d = (k a).run d' := by
  change EStateM.bind m k d = _
  change m d = _ at h
  rw [EStateM.bind, h]
  rfl

theorem run_bind_of_error {fault : ParseFault} (h : m.run d = .error fault d') :
    (m >>= k).run d = .error fault d' := by
  change EStateM.bind m k d = _
  change m d = _ at h
  rw [EStateM.bind, h]

end Steps

inductive Same (S : Desk → α → β → Prop) (d : Desk) :
    Result ParseFault Desk α → Except ParseFault (β × List Token) → Prop where
  | ok {a : α} {b : β} {d' : Desk} {left : List Token} :
    d.Later d' → d'.rest = left → S d' a b → Same S d (.ok a d') (.ok (b, left))
  | error (fault : ParseFault) (d' : Desk) : Same S d (.error fault d') (.error fault)

section Same
variable {S : Desk → α → β → Prop} {T : Desk → γ → δ → Prop}
    {x : Except ParseFault (β × List Token)}
  {y : Except ParseFault β} {r : Result ParseFault Desk α}

theorem Same.later (h : Same S d' r x) (given : d.Later d') : Same S d r x := by
  cases h with
  | ok later left same => exact .ok (given.trans later) left same
  | error fault d' => exact .error fault d'

theorem Same.bind {g : β × List Token → Except ParseFault (δ × List Token)}
    (h : Same S d (m.run d) x)
    (hk : ∀ a d' b, d.Later d' → S d' a b → Same T d' ((k a).run d') (g (b, d'.rest))) :
    Same T d ((m >>= k).run d) (x >>= g) := by
  generalize hm : m.run d = r at h
  cases h with
  | ok later left same =>
    subst left
    rw [run_bind_of_ok hm]
    exact (hk _ _ _ later same).later later
  | error fault d' =>
    rw [run_bind_of_error hm]
    exact .error fault d'

/-- A step that takes no tokens. -/
theorem Same.bind_still {g : β → Except ParseFault (δ × List Token)}
    (h : Same S d (m.run d) (y.map (·, d.rest)))
    (hk : ∀ a d' b, d.Later d' → d'.rest = d.rest → S d' a b → Same T d' ((k a).run d') (g b)) :
    Same T d ((m >>= k).run d) (y >>= g) := by
  generalize hm : m.run d = r at h
  cases y with
  | error fault =>
    cases h with
    | error fault d' =>
      rw [run_bind_of_error hm]
      exact .error fault d'
  | ok b =>
    cases h with
    | ok later left same =>
      rw [run_bind_of_ok hm]
      exact (hk _ _ _ later left same).later later

end Same

def IsPiece (d : Desk) (p : Piece) (e : Expr) : Prop := p.node = e ∧ d.Knows p

def IsRow (d : Desk) (ps : List Piece) (es : List Expr) : Prop :=
  ps.map Piece.node = es ∧ ∀ p ∈ ps, d.Knows p

theorem IsRow.cons {p : Piece} {e : Expr} {ps : List Piece} {es : List Expr} (first : IsPiece d p e)
    (others : IsRow d ps es) : IsRow d (p :: ps) (e :: es) := by
  obtain ⟨rfl, known⟩ := first
  obtain ⟨rfl, all⟩ := others
  exact ⟨rfl, List.forall_mem_cons.2 ⟨known, all⟩⟩

theorem heights_eq {ps : List Piece} (known : ∀ p ∈ ps, d.Knows p) :
    (ps.map d.height).foldr max 0 = Expr.heights (ps.map Piece.node) := by
  induction ps with
  | nil => rfl
  | cons p ps ih =>
    obtain ⟨first, others⟩ := List.forall_mem_cons.1 known
    rw [List.map_cons, List.map_cons, List.foldr_cons, Expr.heights, first.2, ih others]

structure Ready (stop : Location) (levels : Nat) (d : Desk) : Prop where
  stop : d.stop = stop
  depth : d.depth + levels = depthLimit
  tidy : d.Tidy

theorem Ready.later (h : Ready stop levels d) (later : d.Later d') : Ready stop levels d' :=
  ⟨later.stop.trans h.stop, by rw [later.depth, h.depth], later.tidy h.tidy⟩

section Pieces
variable {node : Expr} {parts : List Piece}

theorem make_same (leaf : node.height = 1) (tidy : d.Tidy) :
    Same IsPiece d ((make node).run d) (.ok (node, d.rest)) := by
  refine .ok ⟨rfl, rfl, Nat.le_succ _,
    fun _ _ => rfl, fun _ n hn => tidy n (Nat.le_of_succ_le hn)⟩ rfl
    ⟨rfl, Nat.lt_succ_self _, ?_⟩
  rw [Desk.height, tidy d.made (Nat.le_refl _), leaf]
  rfl

theorem grow_same (known : ∀ p ∈ parts, d.Knows p)
    (height : node.height = 1 + Expr.heights (parts.map Piece.node)) :
    Same IsPiece d ((grow t node parts).run d) ((Expr.grow t node).map (·, d.rest)) := by
  have same : 1 + (parts.map d.height).foldr max 0 = node.height := by rw [heights_eq known, height]
  unfold Expr.grow
  by_cases low : node.height ≤ depthLimit
  · have made : (grow t node parts).run d = .ok ⟨d.made, node⟩
        { d with made := d.made + 1, heights := (d.made, node.height) :: d.heights } := by
      rw [← same] at low ⊢
      exact congrFun (if_pos low) _
    rw [made, if_pos low]
    refine .ok ⟨rfl, rfl, Nat.le_succ _, fun n hn => ?_, fun tidy n hn => ?_⟩ rfl ⟨rfl,
      Nat.lt_succ_self _, ?_⟩
    · rw [List.lookup_cons, beq_eq_false_iff_ne.2 (Nat.ne_of_lt hn)]
    · rw [List.lookup_cons, beq_eq_false_iff_ne.2 (Nat.ne_of_gt hn)]
      exact tidy n (Nat.le_of_succ_le hn)
    · rw [Desk.height, List.lookup_cons_self]
      rfl
  · have refused : (grow t node parts).run d =
        .error (.at (.tooDeep depthLimit) t.place) { d with made := d.made + 1 } := by
      rw [← same] at low
      exact congrFun (if_neg low) _
    rw [refused, if_neg low]
    exact .error _ _

/-- The same as the last step. -/
theorem grow_last (known : ∀ p ∈ parts, d.Knows p)
    (height : node.height = 1 + Expr.heights (parts.map Piece.node)) :
    Same IsPiece d ((grow t node parts).run d) (do
      let e ← Expr.grow t node
      return (e, d.rest)) := by
  have step := grow_same (t := t) known height
  cases grown : Expr.grow t node <;> rw [grown] at step <;> exact step

end Pieces

theorem expect_same (kind : Token.Kind) (h : d.stop = stop) :
    Same (fun _ a b => a = b) d ((expect kind).run d) (Expr.expect stop kind d.rest) := by
  subst h
  unfold expect
  rw [run_get_bind]
  cases left : d.rest with
  | nil => exact .error _ _
  | cons t tokens =>
    rw [Expr.expect]
    split
    · exact .ok d.later_advanced (Desk.rest_advanced left) rfl
    · exact .error _ _

def Follows (stop : Location) (levels : Nat) (m : Reads Piece) (f : Expr.ReadsExpr) : Prop :=
  ∀ d, Ready stop levels d → Same IsPiece d (m.run d) (f d.rest)

section Follow
variable {item operand : Reads Piece} {f : Expr.ReadsExpr} {left : Piece} {e : Expr}

theorem chain_same (level : Nat) (h : Follows stop levels operand f) (fuel : Nat)
    (ready : Ready stop levels d) (own : IsPiece d left e) :
    Same IsPiece d ((chain level operand fuel left).run d) (Expr.chain level f fuel e d.rest) := by
  induction fuel generalizing d left e with
  | zero => exact .ok (.refl d) rfl own
  | succ fuel ih =>
    obtain ⟨rfl, known⟩ := own
    rw [chain, run_get_bind]
    cases behind : d.rest with
    | nil => exact .ok (.refl d) behind ⟨rfl, known⟩
    | cons t tokens =>
      have idle : Same IsPiece d (.ok left d) (.ok (left.node, t :: tokens)) :=
        .ok (.refl d) behind ⟨rfl, known⟩
      rw [Expr.chain]
      obtain ⟨kind, text, place, width⟩ := t
      cases kind with
      | operator op =>
        dsimp only
        split
        · rw [run_advance_bind, ← Desk.rest_advanced behind]
          have after := d.later_advanced
          refine ((h _ (ready.later after)).bind fun right d₁ e₁ later own => ?_).later after
          obtain ⟨rfl, known₁⟩ := own
          have both : ∀ p ∈ [left, right], d₁.Knows p := by
            simpa using ⟨known.later (after.trans later), known₁⟩
          refine Same.bind_still (grow_same both (by simp [Expr.height, Expr.heights]))
            fun whole d₂ e₂ later₂ still own₂ => ?_
          rw [← still]
          exact ih (ready.later (after.trans (later.trans later₂))) own₂
        · exact idle
      | _ => exact idle

theorem tier_follows (size : Nat) (unary : Follows stop levels operand f) (n : Nat) :
    Follows stop levels (tier size operand n) (Expr.tier size f n) := by
  induction n with
  | zero => exact unary
  | succ n ih =>
    intro d ready
    rw [tier, Expr.tier]
    exact (ih d ready).bind fun left d' e later own => chain_same _ ih size (ready.later later) own

theorem close_same (closing : Token.Kind) (h : d.stop = stop) :
    Same IsRow d ((close closing).run d) (do
      let (_, rest) ← Expr.expect stop closing d.rest
      return ([], rest)) := by
  refine (expect_same closing h).bind fun _ d' _ later _ => ?_
  exact .ok (.refl d') rfl ⟨rfl, by simp⟩

theorem cons_same {more : Reads (List Piece)}
    {g : List Token → Except ParseFault (List Expr × List Token)} (h : Follows stop levels item f)
    (ready : Ready stop levels d)
    (others : ∀ d, Ready stop levels d → Same IsRow d (more.run d) (g d.rest)) :
    Same IsRow d ((do
        let first ← item
        let others ← more
        return first :: others : Reads (List Piece)).run d) (do
      let (first, rest) ← f d.rest
      let (others, rest') ← g rest
      return (first :: others, rest')) := by
  refine (h d ready).bind fun first d₁ e later own => ?_
  refine (others d₁ (ready.later later)).bind fun found d₂ es later' row => ?_
  exact .ok (.refl d₂) rfl (.cons ⟨own.1, own.2.later later'⟩ row)

theorem moreItems_same (closing : Token.Kind) (h : Follows stop levels item f) (fuel : Nat)
    (ready : Ready stop levels d) :
    Same IsRow d ((moreItems item closing fuel).run d)
      (Expr.moreItems stop f closing fuel d.rest) := by
  induction fuel generalizing d with
  | zero => exact close_same closing ready.stop
  | succ fuel ih =>
    rw [moreItems, run_get_bind, Expr.moreItems]
    by_cases comma : startsWith .comma d.rest = true
    · obtain ⟨t, -, left⟩ := Desk.rest_of_startsWith comma
      have after := d.later_advanced
      rw [left] at comma ⊢
      rw [if_pos comma, if_pos comma, run_advance_bind, run_get_bind, List.drop_succ_cons,
        List.drop_zero]
      by_cases closed : startsWith closing d.advanced.rest = true
      · rw [if_pos closed, if_neg (by simp [closed])]
        exact (close_same closing (ready.later after).stop).later after
      · rw [if_neg closed, if_pos (by simp [comma, closed])]
        exact (cons_same h (ready.later after) fun _ ready' => ih ready').later after
    · rw [if_neg comma, if_neg (by simp [comma]), if_neg comma]
      exact close_same closing ready.stop

theorem items_same (closing : Token.Kind) (h : Follows stop levels item f)
    (ready : Ready stop levels d) :
    Same IsRow d ((items size item closing).run d) (Expr.items size stop f closing d.rest) := by
  rw [items, run_get_bind, Expr.items]
  by_cases closed : startsWith closing d.rest = true
  · have ended := close_same closing ready.stop
    obtain ⟨t, kind, left⟩ := Desk.rest_of_startsWith closed
    rw [if_pos closed, if_pos closed]
    rw [left, Expr.expect, if_pos kind] at ended
    rw [left]
    exact ended
  · rw [if_neg closed, if_neg closed]
    exact cons_same h ready fun _ ready' => moreItems_same closing h size ready'

def IsRow? (d : Desk) : Option (List Piece) → Option (List Expr) → Prop
  | some ps, some es => IsRow d ps es
  | none, none => True
  | _, _ => False

theorem arguments?_same (h : Follows stop levels item f) (ready : Ready stop levels d) :
    Same IsRow? d ((arguments? size item).run d) (Expr.arguments? size stop f d.rest) := by
  rw [arguments?, run_get_bind, Expr.arguments?]
  by_cases opened : startsWith .leftParen d.rest = true
  · obtain ⟨t, -, left⟩ := Desk.rest_of_startsWith opened
    have after := d.later_advanced
    rw [if_pos opened, if_pos opened, run_advance_bind, left, List.drop_succ_cons, List.drop_zero]
    refine ((items_same .rightParen h (ready.later after)).bind fun found d' es later row =>
      ?_).later after
    exact .ok (.refl d') rfl row
  · rw [if_neg opened, if_neg opened]
    exact .ok (.refl d) rfl trivial

theorem IsRow?.getD {found : Option (List Piece)} {es : Option (List Expr)}
    (h : IsRow? d found es) :
    IsRow d (found.getD []) (es.getD []) := by
  cases found with
  | some ps =>
    cases es with
    | some es => exact h
    | none => exact h.elim
  | none =>
    cases es with
    | some es => exact h.elim
    | none => exact ⟨rfl, by simp⟩

theorem ofExcept_same {x : Except ParseFault β} :
    Same (fun _ a b => a = b) d ((ofExcept x : Reads β).run d) (x.map (·, d.rest)) := by
  cases x with
  | ok b => exact .ok (.refl d) rfl rfl
  | error fault => exact .error fault d

theorem postfixes_same (h : Follows stop levels item f) (fuel : Nat) (ready : Ready stop levels d)
    (own : IsPiece d left e) :
    Same IsPiece d ((postfixes size item fuel left).run d)
      (Expr.postfixes size stop f fuel e d.rest) := by
  induction fuel generalizing d left e with
  | zero => exact .ok (.refl d) rfl own
  | succ fuel ih =>
    rw [postfixes, run_get_bind]
    by_cases dotted : startsWith .dot d.rest = true
    · obtain ⟨dot, kind, behind⟩ := Desk.rest_of_startsWith dotted
      have after := d.later_advanced
      obtain ⟨rfl, known⟩ := own
      rw [if_pos dotted, behind, run_advance_bind, run_get_bind]
      unfold Expr.postfixes
      rw [if_pos kind]
      cases behind' : d.advanced.rest with
      | nil =>
        rw [after.stop, ready.stop]
        exact .error _ _
      | cons t tokens =>
        have after' := after.trans d.advanced.later_advanced
        obtain ⟨kind, text, place, width⟩ := t
        cases kind with
        | integer =>
          dsimp only
          rw [run_advance_bind, ← Desk.rest_advanced behind']
          refine (Same.bind_still ofExcept_same fun n d₁ n' later still same => ?_).later after'
          subst same
          have known₁ := known.later (after'.trans later)
          refine Same.bind_still
            (grow_same (by simpa using known₁) (by simp [Expr.height, Expr.heights]))
            fun whole d₂ e₂ later₂ still₂ own₂ => ?_
          rw [← still, ← still₂]
          exact ih (ready.later (after'.trans (later.trans later₂))) own₂
        | identifier =>
          dsimp only
          rw [run_advance_bind, ← Desk.rest_advanced behind']
          refine ((arguments?_same h (ready.later after')).bind fun found d₁ es later row =>
            ?_).later after'
          obtain ⟨same, all⟩ := row.getD
          have known₁ := List.forall_mem_cons.2 ⟨known.later (after'.trans later), all⟩
          dsimp only
          rw [← same]
          refine Same.bind_still (grow_same known₁ (by simp [Expr.height, Expr.heights]))
            fun whole d₂ e₂ later₂ still₂ own₂ => ?_
          rw [← still₂]
          exact ih (ready.later (after'.trans (later.trans later₂))) own₂
        | _ => exact .error _ _
    · rw [if_neg dotted, Expr.postfixes_idle (by simpa using dotted)]
      exact .ok (.refl d) rfl own

theorem primary_same (h : Follows stop levels item f) (ready : Ready stop levels d) :
    Same IsPiece d ((primary size item).run d) (Expr.primary size stop f d.rest) := by
  rw [primary, run_get_bind]
  cases behind : d.rest with
  | nil =>
    rw [ready.stop]
    exact .error _ _
  | cons t tokens =>
    have after := d.later_advanced
    have ready' := ready.later after
    have leaf {node : Expr} (single : node.height = 1) :
        Same IsPiece d ((make node).run d.advanced) (.ok (node, tokens)) := by
      rw [← Desk.rest_advanced behind]
      exact (make_same single ready'.tidy).later after
    rw [Expr.primary]
    obtain ⟨kind, text, place, width⟩ := t
    cases kind with
    | integer =>
      dsimp only
      rw [run_advance_bind]
      cases Expr.integerNumeral text with
      | error fault => exact .error _ _
      | ok n =>
        rw [run_ofExcept_bind, ok_bind]
        by_cases fits : Integer.fits n = true
        · rw [if_pos fits, if_pos fits]
          exact leaf rfl
        · rw [if_neg fits, if_neg fits]
          exact .error _ _
    | float =>
      dsimp only
      rw [run_advance_bind]
      cases Expr.floatNumeral text with
      | error fault => exact .error _ _
      | ok x => exact leaf rfl
    | string => exact leaf rfl
    | keyword word =>
      cases word with
      | true | false | nil => exact leaf rfl
      | _ => exact .error _ _
    | identifier =>
      dsimp only
      rw [run_advance_bind, ← Desk.rest_advanced behind]
      refine ((arguments?_same h ready').bind fun found d₁ es later row => ?_).later after
      have ready₁ := ready'.later later
      cases found with
      | some ps =>
        cases es with
        | none => exact row.elim
        | some es =>
          obtain ⟨rfl, all⟩ := row
          exact grow_last all rfl
      | none =>
        cases es with
        | none => exact make_same rfl ready₁.tidy
        | some es => exact row.elim
    | leftParen =>
      dsimp only
      rw [run_advance_bind, ← Desk.rest_advanced behind]
      refine ((h _ ready').bind fun inner d₁ e later own => ?_).later after
      refine (expect_same .rightParen (ready'.later later).stop).bind fun _ d₂ _ later' _ => ?_
      exact .ok (.refl d₂) rfl ⟨own.1, own.2.later later'⟩
    | leftBracket =>
      dsimp only
      rw [run_advance_bind, ← Desk.rest_advanced behind]
      refine ((items_same .rightBracket h ready').bind fun found d₁ es later row => ?_).later after
      obtain ⟨rfl, all⟩ := row
      exact grow_last all rfl
    | _ => exact .error _ _

theorem nested_same {x : Except ParseFault (Expr × List Token)}
    (h : Same IsPiece { d with depth := d.depth + 1 } (item.run { d with depth := d.depth + 1 }) x)
    (ready : Ready stop (levels + 1) d) : Same IsPiece d ((nested item).run d) x := by
  have room : ¬ depthLimit < d.depth + 1 := by
    have := ready.depth
    omega
  change Same IsPiece d (nested item d) x
  rw [nested]
  dsimp only
  rw [if_neg room]
  generalize item.run { d with depth := d.depth + 1 } = r at h
  cases h with
  | error fault d' => exact .error _ _
  | ok later left own =>
    refine .ok ⟨later.stop, ?_, later.made, later.kept, later.tidy⟩ left own
    dsimp only
    rw [later.depth]
    rfl

theorem run_nested_full (full : depthLimit ≤ d.depth) :
    (nested m).run d =
      .error (.at (.tooDeep depthLimit) (Expr.placeOf d.stop d.rest))
        { d with depth := d.depth + 1 } :=
  if_pos (Nat.lt_succ_of_le full)

theorem unary_follows (size levels : Nat) :
    Follows stop levels (unary size levels) (Expr.unaryOf size stop levels) := by
  induction levels with
  | zero =>
    intro d ready
    rw [unary, run_nested_full (Nat.le_of_eq ready.depth.symm), Expr.unaryOf, ready.stop]
    exact .error _ _
  | succ levels ih =>
    intro d ready
    have deeper : Ready stop levels { d with depth := d.depth + 1 } :=
      ⟨ready.stop, by rw [← ready.depth]; dsimp only; omega, ready.tidy⟩
    rw [unary]
    refine nested_same ?_ ready
    rw [run_get_bind]
    change Same IsPiece _ _
      (Expr.unaryOf size stop (levels + 1) { d with depth := d.depth + 1 }.rest)
    generalize { d with depth := d.depth + 1 } = d at deeper
    cases behind : d.rest with
    | nil =>
      rw [Expr.unaryOf, deeper.stop]
      exact .error _ _
    | cons t tokens =>
      rw [Expr.unaryOf]
      dsimp only
      cases Expr.unaryOperator? t.kind with
      | some op =>
        have after := d.later_advanced
        dsimp only
        rw [run_advance_bind, ← Desk.rest_advanced behind]
        refine ((ih _ (deeper.later after)).bind fun operand d₁ e later own => ?_).later after
        obtain ⟨rfl, known⟩ := own
        exact grow_last (by simpa using known) (by simp [Expr.height, Expr.heights])
      | none =>
        have item := tier_follows size ih Operator.levels
        dsimp only
        rw [← behind]
        refine (primary_same item deeper).bind fun node d₁ e later own => ?_
        exact postfixes_same item size (deeper.later later) own

end Follow

def outcome : Result ParseFault Desk α → Except ParseFault α
  | .ok a _ => .ok a
  | .error fault _ => .error fault

section Outcome

theorem Same.outcome_bind {S : Desk → α → β → Prop} {x : Except ParseFault (β × List Token)}
    {g : β × List Token → Except ParseFault γ} (h : Same S d (m.run d) x)
    (hk : ∀ a d' b, d.Later d' → S d' a b → outcome ((k a).run d') = g (b, d'.rest)) :
    outcome ((m >>= k).run d) = x >>= g := by
  generalize hm : m.run d = r at h
  cases h with
  | ok later left same =>
    subst left
    rw [run_bind_of_ok hm]
    exact hk _ _ _ later same
  | error fault d' =>
    rw [run_bind_of_error hm]
    rfl

/-- What follows need not look at the desk. -/
theorem outcome_bind {g : α → Except ParseFault γ} (hk : ∀ a d, outcome ((k a).run d) = g a)
    (d : Desk) :
    outcome ((m >>= k).run d) = outcome (m.run d) >>= g := by
  cases hm : m.run d with
  | ok a d' =>
    rw [run_bind_of_ok hm]
    exact hk a d'
  | error fault d' =>
    rw [run_bind_of_error hm]
    rfl

theorem outcome_bind_pure (f : α → γ) (d : Desk) :
    outcome ((do
        let a ← m
        return f a : Reads γ).run d) = do
      let a ← outcome (m.run d)
      return f a := outcome_bind (g := fun a => pure (f a)) (fun _ _ => rfl) d

theorem outcome_ofExcept (x : Except ParseFault α) (d : Desk) :
    outcome ((ofExcept x : Reads α).run d) = x := by
  cases x <;> rfl

theorem outcome_finish (d : Desk) : outcome (finish.run d) = Expr.finish d.rest :=
  outcome_ofExcept _ d

/-- At the first token of a tag all levels may be opened. -/
theorem expression_outcome (ready : Ready stop depthLimit d) :
    outcome (expression.run d) = Expr.ofTokens stop d.rest := by
  rw [expression, run_get_bind, Expr.ofTokens, Expr.read]
  refine (tier_follows _ (unary_follows _ _) _ d ready).outcome_bind fun whole d' e later own => ?_
  obtain ⟨rfl, -⟩ := own
  dsimp only
  rw [← outcome_finish d']
  exact outcome_bind_pure _ d'

theorem statement_outcome (draft : Draft) (ready : Ready stop depthLimit d) :
    outcome ((statement draft).run d) = draft.statement stop d.rest := by
  rw [statement, run_get_bind]
  cases behind : d.rest with
  | nil =>
    rw [ready.stop]
    rfl
  | cons t tokens =>
    have ready' := ready.later d.later_advanced
    have rest := Desk.rest_advanced behind
    subst rest
    obtain ⟨kind, text, place, width⟩ := t
    cases kind with
    | keyword word =>
      cases word with
      | if_ =>
        rw [Draft.statement, ← expression_outcome ready']
        exact outcome_bind (fun condition d' => outcome_ofExcept _ d') _
      | for_ =>
        rw [Draft.statement]
        dsimp only
        rw [run_advance_bind]
        refine (expect_same _ ready'.stop).outcome_bind fun item d₁ item' later same => ?_
        subst same
        have ready₁ := ready'.later later
        refine (expect_same _ ready₁.stop).outcome_bind fun _ d₂ _ later' _ => ?_
        dsimp only
        rw [← expression_outcome (ready₁.later later')]
        exact outcome_bind (fun collection d' => outcome_ofExcept _ d') d₂
      | elsif =>
        rw [Draft.statement]
        dsimp only
        rw [run_advance_bind]
        cases draft.turn ⟨.keyword .elsif, text, place, width⟩ with
        | error fault => rfl
        | ok found =>
          obtain ⟨first, done, around⟩ := found
          rw [run_ofExcept_bind, ok_bind, ← expression_outcome ready']
          exact outcome_bind_pure _ _
      | else_ =>
        rw [Draft.statement]
        dsimp only
        rw [run_advance_bind, ← outcome_finish]
        refine outcome_bind (fun _ d' => ?_) _
        cases draft.turn ⟨.keyword .else_, text, place, width⟩ <;> rfl
      | end_ =>
        rw [Draft.statement]
        dsimp only
        rw [run_advance_bind, ← outcome_finish]
        refine outcome_bind (fun _ d' => ?_) _
        cases draft.blocks <;> rfl
      | _ => rfl
    | _ => rfl

/-- What a desk is when a tag has been taken up, whatever it was before. -/
theorem run_take {kind : TagKind} {place : Location} {code : String}
    (h : Token.ofCode (Part.codePlace kind place) code = .ok (tokens, stop)) (d : Desk) :
    (take kind place code).run d = .ok () (.fresh tokens stop) := by
  rw [take, h]
  rfl

/-- Whatever lies on the desk, a part has the outcome it has by itself. -/
theorem part_outcome (draft : Draft) (p : Part) (d : Desk) :
    outcome ((part draft p).run d) = draft.part p := by
  cases p with
  | text place content => rfl
  | tag kind place code =>
    unfold part
    rw [Draft.part]
    cases scanned : Token.ofCode (Part.codePlace kind place) code with
    | error fault =>
      have refused : (take kind place code).run d = .error fault d := by
        rw [take, scanned]
        rfl
      dsimp only
      rw [run_bind_of_error refused]
      rfl
    | ok found =>
      obtain ⟨tokens, stop⟩ := found
      have ready : Ready stop depthLimit (.fresh tokens stop) := ⟨rfl, rfl, fun _ _ => rfl⟩
      have read : outcome (expression.run (.fresh tokens stop)) = Expr.ofTokens stop tokens :=
        expression_outcome ready
      dsimp only
      rw [run_bind_of_ok (run_take scanned d), ok_bind]
      cases kind with
      | statement => exact statement_outcome draft ready
      | escaped | raw =>
        dsimp only
        rw [← read]
        exact outcome_bind_pure _ _

end Outcome

end Reads

namespace Reader

/-- A row of parts has the outcome and the count that it has at any desk. -/
theorem parts_eq (r : Reader) (draft : Draft) (found : List Part) :
    (r.parts draft found).1 = (Document.ofPartsCounted draft r.tagCount found).1 ∧
      (r.parts draft found).2.tagCount = (Document.ofPartsCounted draft r.tagCount found).2 := by
  induction found generalizing r draft with
  | nil => exact ⟨rfl, rfl⟩
  | cons p rest ih =>
    have same := Reads.part_outcome draft p r.desk
    unfold parts Document.ofPartsCounted
    cases taken : (Reads.part draft p).run r.desk with
    | error fault desk =>
      rw [taken] at same
      rw [← same]
      exact ⟨rfl, rfl⟩
    | ok draft' desk =>
      rw [taken] at same
      rw [← same]
      exact ih ⟨desk, _⟩ draft'

end Reader
end Stencil
