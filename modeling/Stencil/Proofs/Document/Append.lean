import Stencil.Proofs.Document.Positions
import Stencil.Proofs.Document.Written

/-! Templates put together. The parts of both stay what they are, except that a text may go on
behind the seam, so that the nodes come one after another, and with them what they are rendered
to. -/
namespace Stencil
open Outcome

/-- Two rows put together: side by side, or with the last text of the one and the first text of the
other made one text. -/
inductive Joined {α : Type} (text : String → α) : List α → List α → List α → Prop where
  | apart (u v : List α) : Joined text u v (u ++ v)
  | merged (u v : List α) (s t : String) :
      Joined text (u ++ [text s]) (text t :: v) (u ++ text (s ++ t) :: v)

theorem Joined.mapM {α β : Type} {text : String → α} {text' : String → β} {f : α → Option β}
    (hf : ∀ s, f (text s) = some (text' s)) {u v w : List α} {u' v' : List β}
    (joined : Joined text u v w) (hu : u.mapM f = some u') (hv : v.mapM f = some v') :
    ∃ w', w.mapM f = some w' ∧ Joined text' u' v' w' := by
  cases joined with
  | apart u v => exact ⟨u' ++ v', mapM_append_eq_some_iff.2 ⟨u', v', hu, hv, rfl⟩, .apart u' v'⟩
  | merged u v s t =>
    obtain ⟨u', last, hu', hlast, rfl⟩ := mapM_append_eq_some_iff.1 hu
    obtain ⟨a, rest, ha, hrest, rfl⟩ := mapM_cons_eq_some_iff.1 hlast
    obtain ⟨b, v', hb, hv', rfl⟩ := mapM_cons_eq_some_iff.1 hv
    cases hrest
    obtain rfl : text' s = a := Option.some.inj ((hf s).symm.trans ha)
    obtain rfl : text' t = b := Option.some.inj ((hf t).symm.trans hb)
    have behind := mapM_cons_eq_some_iff.2 ⟨_, v', hf (s ++ t), hv', rfl⟩
    exact ⟨_, mapM_append_eq_some_iff.2 ⟨u', _, hu', behind, rfl⟩, .merged u' v' s t⟩

namespace Part

theorem row_append_iff {u v : List Part} :
    Row (u ++ v) ↔ Row u ∧ Row v ∧
      ((∃ place s, u.getLast? = some (text place s)) →
        ∀ place s, v.head? ≠ some (text place s)) := by
  induction u with
  | nil => simp [Row]
  | cons p u ih =>
    cases u with
    | nil => cases p <;> simp [Row, and_comm]
    | cons q u =>
      rw [List.getLast?_cons_cons]
      cases p with
      | text | tag =>
        rw [List.cons_append, Row, Row, ih]
        simp only [List.cons_append, List.head?_cons, and_assoc]

/-- Literal texts behind one another are literal if no delimiter comes about at the seam. -/
theorem literal_append {s t : List Char} (hs : Literal s) (ht : Literal t)
    (seam : ¬ (s.getLast? = some '<' ∧ t.head? = some '%')) : Literal (s ++ t) := by
  refine ⟨fun nothing => hs.1 (List.append_eq_nil_iff.1 nothing).1, fun opened => ?_⟩
  obtain inside | inside | ⟨l, r, hl, hr, split, ending, start⟩ :=
    List.infix_append_iff_ne_nil.1 opened
  · exact hs.2 inside
  · exact ht.2 inside
  · rcases l with _ | ⟨c, _ | ⟨c', l⟩⟩
    · exact hl rfl
    · cases split
      obtain ⟨before, rfl⟩ := ending
      obtain ⟨after, rfl⟩ := start
      exact seam ⟨by simp, rfl⟩
    · obtain ⟨rfl, rfl⟩ := List.append_eq_nil_iff.1 (List.cons.inj (List.cons.inj split).2).2.symm
      exact hr rfl

theorem exists_joined {u v : List Part} (hu : Row u) (hv : Row v)
    (seam : ¬ ((sources u).getLast? = some '<' ∧ (sources v).head? = some '%')) :
    ∃ w, Joined (text .start) (u.map unplaced) (v.map unplaced) (w.map unplaced) ∧ Row w ∧
      sources w = sources u ++ sources v := by
  by_cases both : (∃ place s, u.getLast? = some (text place s)) ∧
    ∃ place t, v.head? = some (text place t)
  · obtain ⟨⟨l, s, last⟩, l', t, first⟩ := both
    obtain ⟨u, rfl⟩ := List.getLast?_eq_some_iff.1 last
    obtain ⟨v, rfl⟩ := List.head?_eq_some_iff.1 first
    obtain ⟨row, ⟨literal, -⟩, before⟩ := row_append_iff.1 hu
    obtain ⟨literal', apart, row'⟩ := hv
    refine ⟨u ++ text l (s ++ t) :: v, ?_, ?_, ?_⟩
    · have merged :
          Joined (text .start) (u.map unplaced ++ [text .start s]) (text .start t :: v.map unplaced)
          (u.map unplaced ++ text .start (s ++ t) :: v.map unplaced) := .merged _ _ s t
      simpa [unplaced] using merged
    · refine row_append_iff.2 ⟨row, ⟨?_, apart, row'⟩, fun ending place content same => ?_⟩
      · rw [String.toList_append]
        refine literal_append literal literal' fun opened => seam ?_
        obtain ⟨ending, start⟩ := opened
        constructor
        · simp [sources_append, source, List.getLast?_append, ending]
        · simp [source, List.head?_append, start]
      · exact before ending l s rfl
    · simp [sources_append, source]
  · refine ⟨u ++ v, ?_,
      row_append_iff.2 ⟨hu, hv, fun ending place s start => both ⟨ending, place, s, start⟩⟩,
        sources_append u v⟩
    rw [List.map_append]
    exact .apart _ _

/-- The parts of two texts put together. -/
theorem scan_append {a b : List Char} {u v : List Part} (ha : scan .start a = .ok u)
    (hb : scan .start b = .ok v) (seam : ¬ (a.getLast? = some '<' ∧ b.head? = some '%')) :
    ∃ w, scan .start (a ++ b) = .ok w ∧
      Joined (text .start) (u.map unplaced) (v.map unplaced) (w.map unplaced) := by
  obtain ⟨hu, -, rfl⟩ := scan_eq_ok_iff.1 ha
  obtain ⟨hv, -, rfl⟩ := scan_eq_ok_iff.1 hb
  obtain ⟨w, joined, row, same⟩ := exists_joined hu hv seam
  obtain ⟨found, cut, alike⟩ := scan_sources row .start
  exact ⟨found, same ▸ cut, alike ▸ joined⟩

end Part

namespace Draft

def behind (nodes : List Node) (d : Draft) : Draft := ⟨d.blocks, nodes ++ d.nodes⟩

theorem add_behind (nodes : List Node) (d : Draft) (n : Node) :
    (d.behind nodes).add n = (d.add n).behind nodes := by
  obtain ⟨blocks, done⟩ := d
  cases blocks with
  | nil => simp [behind, add]
  | cons block around => rfl

/-- Finished nodes make no difference to what an action does. -/
theorem act?_behind (nodes : List Node) (d : Draft) (a : Action) :
    (d.behind nodes).act? a = (d.act? a).map (behind nodes) := by
  have pushed (head : OpenBlock.Head) : (d.behind nodes).push? head =
      (d.push? head).map (behind nodes) := by
    unfold push? behind
    split <;> rfl
  have turned (head : List Branch → OpenBlock.Head) :
      (d.behind nodes).turn? head = (d.turn? head).map (behind nodes) := by
    obtain ⟨blocks, done⟩ := d
    rcases blocks with _ | ⟨⟨place, head', body⟩, around⟩
    · rfl
    · cases head' <;> rfl
  cases a with
  | text | output => exact congrArg some (add_behind nodes d _)
  | if_ | for_ => exact pushed _
  | elsif condition => exact turned (.branch · condition)
  | else_ => exact turned .otherwise
  | end_ =>
    obtain ⟨blocks, done⟩ := d
    cases blocks with
    | nil => rfl
    | cons block around => exact congrArg some (add_behind nodes ⟨around, done⟩ block.close)

theorem run?_behind (nodes : List Node) (d : Draft) (actions : List Action) :
    (d.behind nodes).run? actions = (d.run? actions).map (behind nodes) := by
  induction actions generalizing d with
  | nil => rfl
  | cons a rest ih =>
    rw [run?, run?, act?_behind]
    cases d.act? a with
    | none => rfl
    | some d => exact ih d

theorem run?_after (nodes : List Node) {actions : List Action} {more : List Node}
    (h : empty.run? actions = some ⟨[], more⟩) :
    run? ⟨[], nodes⟩ actions = some ⟨[], nodes ++ more⟩ := by
  have ran := run?_behind nodes empty actions
  rwa [h, behind, empty, List.append_nil] at ran

/-- Actions that leave no block open make the nodes of both rows. -/
theorem run?_joined {u v w : List Action} {na nb : List Node} (joined : Joined .text u v w)
    (hu : empty.run? u = some ⟨[], na⟩) (hv : empty.run? v = some ⟨[], nb⟩) :
    ∃ nc, empty.run? w = some ⟨[], nc⟩ ∧ Joined (.text 0) na nb nc := by
  cases joined with
  | apart u v =>
    refine ⟨na ++ nb, ?_, .apart na nb⟩
    rw [run?_append, hu, Option.bind_some, run?_after na hv]
  | merged u v s t =>
    obtain ⟨⟨blocks, nodes⟩, first, last⟩ :=
      Option.bind_eq_some_iff.1 ((run?_append _ _ _).symm.trans hu)
    -- a block that is open stays open behind a text
    cases blocks with
    | cons block around => cases last
    | nil =>
      cases last
      have second : (empty.behind [.text 0 t]).run? v = some ⟨[], nb⟩ := hv
      rw [run?_behind, Option.map_eq_some_iff] at second
      obtain ⟨⟨blocks, nb⟩, ran, same⟩ := second
      cases same
      refine ⟨nodes ++ .text 0 (s ++ t) :: nb, ?_, .merged nodes nb s t⟩
      have whole := run?_after (nodes ++ [.text 0 (s ++ t)]) ran
      rw [List.append_assoc] at whole
      rw [run?_append, first]
      exact whole

end Draft

namespace Node

theorem renderAll_joined {g : Globals} {scope : Scope} {loops depth : Nat} {u v w : List Node}
    (joined : Joined (.text 0) u v w) :
    (renderAll g scope loops depth w).map String.join =
      (renderAll g scope loops depth u).map String.join >>= fun s =>
        ((renderAll g scope loops depth v).map String.join).map (s ++ ·) := by
  cases joined with
  | apart u v =>
    rw [renderAll_append]
    cases renderAll g scope loops depth u with
    | error fault => rfl
    | ok pieces => cases renderAll g scope loops depth v <;> simp
  | merged u v s t =>
    rw [renderAll_append, renderAll_append]
    simp only [renderAll, render, ok_bind, pure_eq_ok]
    cases renderAll g scope loops depth u with
    | error fault => rfl
    | ok pieces => cases renderAll g scope loops depth v <;> simp [String.append_assoc]

end Node

namespace Document

theorem parse_append {a b : String} {da db : Document} (ha : parse a = .ok da)
    (hb : parse b = .ok db) (seam : ¬ (a.toList.getLast? = some '<' ∧ b.toList.head? = some '%')) :
    ∃ d, parse (a ++ b) = .ok d ∧
    Joined (.text 0) da.unplaced.nodes db.unplaced.nodes d.unplaced.nodes := by
  obtain ⟨u, actions, cut, read, ran⟩ := actions_of_parse ha
  obtain ⟨v, actions', cut', read', ran'⟩ := actions_of_parse hb
  obtain ⟨w, whole, joined⟩ := Part.scan_append cut cut' seam
  rw [← String.toList_append] at whole
  rw [← Part.mapM_ofPart?_unplaced] at read read'
  have literal (s : String) : Action.ofPart? (.text .start s) = some (.text s) := rfl
  obtain ⟨all, told, joined⟩ := joined.mapM literal read read'
  rw [Part.mapM_ofPart?_unplaced] at told
  obtain ⟨nodes, done, joined⟩ := Draft.run?_joined joined ran ran'
  obtain ⟨d, parsed, same⟩ := parse_of_actions whole told done
  exact ⟨d, parsed, by rwa [same]⟩

/-- A text without an opening delimiter is a template of its own. -/
theorem parse_literal {text : String} (plain : ¬ TagKind.statement.opener <:+: text.toList) :
    ∃ d, parse text = .ok d ∧ ∀ (g : Globals) (scope : Scope), d.render g scope = .ok text := by
  by_cases nothing : text = ""
  · subst nothing
    exact ⟨⟨[]⟩, by cbv, fun _ _ => rfl⟩
  · have row : Part.Row [.text .start text] := ⟨⟨by simpa using nothing, plain⟩, by simp, trivial⟩
    obtain ⟨found, cut, same⟩ := Part.scan_sources row .start
    have told : found.mapM Action.ofPart? = some [.text text] := by
      rw [← Part.mapM_ofPart?_unplaced, same]
      rfl
    have source : Part.sources [.text .start text] = text.toList := List.append_nil _
    obtain ⟨d, parsed, unplaced⟩ := parse_of_actions (source ▸ cut) told rfl
    refine ⟨d, parsed, fun g scope => ?_⟩
    have single : String.join [text] = text := by simp
    rw [← render_unplaced_of_parse parsed, unplaced]
    exact congrArg Except.ok single

/-- Templates that compile make one together, unless an opening delimiter comes about where they
meet. In any scope the whole is rendered to what the first one is and then what the second one is,
or fails with the fault of the first one that does. A text without an opening delimiter is rendered
to itself. -/
theorem render_append :
    (∀ (a b : String) (da db : Document), parse a = .ok da → parse b = .ok db →
      ¬ (a.toList.getLast? = some '<' ∧ b.toList.head? = some '%') →
      ∃ d, parse (a ++ b) = .ok d ∧ ∀ (g : Globals) (scope : Scope),
        d.render g scope = da.render g scope >>= fun s => (db.render g scope).map (s ++ ·)) ∧
      ∀ text : String, ¬ ['<', '%'] <:+: text.toList →
        ∃ d, parse text = .ok d ∧ ∀ (g : Globals) (scope : Scope), d.render g scope = .ok text := by
  refine ⟨fun a b da db ha hb seam => ?_, fun text plain => parse_literal plain⟩
  obtain ⟨d, parsed, joined⟩ := parse_append ha hb seam
  refine ⟨d, parsed, fun g scope => ?_⟩
  rw [← render_unplaced_of_parse parsed, ← render_unplaced_of_parse ha,
    ← render_unplaced_of_parse hb]
  exact Node.renderAll_joined joined

/-- The first text goes on in the second one, with what would otherwise be half a delimiter. -/
theorem render_append_merged :
    ∃ da db : Document, parse "<%= x %> <" = .ok da ∧ parse "= <%= y %>" = .ok db ∧
      (∃ d, parse ("<%= x %> <" ++ "= <%= y %>") = .ok d ∧ ∀ (g : Globals) (scope : Scope),
        d.render g scope = da.render g scope >>= fun s => (db.render g scope).map (s ++ ·)) ∧
      ∃ d, parse "< % %>" = .ok d ∧
        ∀ (g : Globals) (scope : Scope), d.render g scope = .ok "< % %>" := by
  have first : parse "<%= x %> <" = .ok ⟨[.output 0 (.name 4 "x") true, .text 8 " <"]⟩ := by cbv
  have second : parse "= <%= y %>" = .ok ⟨[.text 0 "= ", .output 2 (.name 6 "y") true]⟩ := by cbv
  exact ⟨_, _, first, second, render_append.1 _ _ _ _ first second (by decide),
    render_append.2 _ (by decide)⟩

-- half a delimiter on each side makes a tag of two texts
example : parse ("<" ++ "%= x %>") = .ok ⟨[.output 0 (.name 4 "x") true]⟩ := by cbv

end Document
end Stencil
