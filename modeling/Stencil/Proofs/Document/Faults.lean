import Stencil.Proofs.Document.Desk
import Stencil.Proofs.Number.Numeral
import Stencil.Proofs.Part.Places
import Stencil.Proofs.Token.Layout

/-! What a template that does not parse is told. Main statement: a fault has a place in the
template, unless a number literal in one of its tags has digits outside positional notation, or too
many digits. -/
namespace Stencil
open Outcome
open ParseFault (Blames)

namespace Token

/-- Every digit of a number literal is decimal, and an integer has no more of them than it may
have. -/
def Plain (t : Token) : Prop :=
  (t.kind = .integer → (∀ c ∈ t.text.toList, Numeral.isDecimalDigit c = true) ∧
    t.text.toList.length ≤ NumeralFault.digitLimit) ∧
  (t.kind = .float → ∀ c ∈ t.text.toList, c = '.' ∨ Numeral.isDecimalDigit c = true)

theorem not_error_iff {α : Type} {x : Except NumeralFault α} :
    (¬ ∃ fault, x = .error fault) ↔ ∃ a, x = .ok a := by
  cases x <;> simp

theorem AllDigits.dotless {cs : List Char} (h : AllDigits cs) : '.' ∉ cs :=
  fun hc => absurd (h.2 _ hc) (by decide)

theorem forall_but_dot {whole fraction : List Char} (hw : '.' ∉ whole) (hf : '.' ∉ fraction)
    (p : Char → Prop) :
    (∀ c ∈ whole ++ '.' :: fraction, c = '.' ∨ p c) ↔ ∀ c ∈ whole ++ fraction, p c := by
  have apart : ∀ c ∈ whole ++ fraction, c ≠ '.' := by
    intro c hc dot
    subst dot
    exact (List.mem_append.1 hc).elim hw hf
  simp only [List.forall_mem_append, List.forall_mem_cons, true_or, true_and] at apart ⊢
  refine and_congr ?_ ?_
  · exact forall₂_congr fun c hc => or_iff_right (apart.1 c hc)
  · exact forall₂_congr fun c hc => or_iff_right (apart.2 c hc)

theorem misread_integer {t : Token} (hk : t.kind = .integer) (fault : NumeralFault) :
    t.Misread fault ↔ Numeral.integer t.text = .error fault := by
  constructor
  · intro misread
    cases misread with
    | integer _ found => exact found
    | float other => rw [hk] at other; cases other
  · exact .integer hk

theorem misread_float {t : Token} (hk : t.kind = .float) (fault : NumeralFault) :
    t.Misread fault ↔ Numeral.float t.text = .error fault := by
  constructor
  · intro misread
    cases misread with
    | integer other => rw [hk] at other; cases other
    | float _ found => exact found
  · exact .float hk

/-- A literal stands for a number exactly if its digits allow it. -/
theorem plain_iff {afterDot : Bool} {t : Token} (h : Spelled afterDot t.kind t.text.toList) :
    t.Plain ↔ ¬ ∃ fault, t.Misread fault := by
  unfold Plain
  by_cases integer : t.kind = .integer
  · simp only [misread_integer integer, not_error_iff, Numeral.integer_eq_ok_iff]
    simp [integer]
  by_cases float : t.kind = .float
  · simp only [misread_float float, not_error_iff]
    rw [float] at h
    generalize hs : t.text.toList = s at h ⊢
    cases h with
    | symbol found => exact absurd (mem_symbols found) (by simp [symbols])
    | @float whole fraction _ hw hf =>
      rw [← String.ofList_toList (s := t.text), hs, Numeral.float_eq_ok_iff (AllDigits.dotless hw),
        ← forall_but_dot (AllDigits.dotless hw) (AllDigits.dotless hf)]
      simp [float]
  · have none : ¬ ∃ fault, t.Misread fault := by
      intro given
      obtain ⟨fault, misread⟩ := given
      cases misread with
      | integer other => exact integer other
      | float other => exact float other
    simp [integer, float, none]

end Token

namespace Part

def tokens : Part → List Token
  | .text .. => []
  | .tag kind place code =>
    match Token.ofCode (codePlace kind place) code with
    | .ok (tokens, _) => tokens
    | .error _ => []

def tokensOf (source : String) : List Token :=
  match ofSource source with
  | .ok (parts, _) => parts.flatMap tokens
  | .error _ => []

theorem mem_tokensOf_iff {source : String} {t : Token} : t ∈ tokensOf source ↔
    ∃ parts stop kind place code tokens stop', ofSource source = .ok (parts, stop) ∧
      .tag kind place code ∈ parts ∧
      Token.ofCode (codePlace kind place) code = .ok (tokens, stop') ∧ t ∈ tokens := by
  unfold tokensOf
  constructor
  · intro inside
    split at inside
    · rename_i parts stop cut
      obtain ⟨p, hp, ht⟩ := List.mem_flatMap.1 inside
      cases p with
      | text place content => cases ht
      | tag kind place code =>
        rw [tokens] at ht
        split at ht
        · rename_i tokens stop' scanned
          exact ⟨parts, stop, kind, place, code, tokens, stop', cut, hp, scanned, ht⟩
        · cases ht
    · cases inside
  · intro given
    obtain ⟨parts, stop, kind, place, code, tokens, stop', cut, hp, scanned, ht⟩ := given
    rw [cut]
    exact List.mem_flatMap.2 ⟨_, hp, by rwa [Part.tokens, scanned]⟩

end Part

open ParseFault (Ground)
variable {G : Ground} {d : Draft} {stop : Location} {tokens : List Token}

def Part.Grounded (G : Ground) : Part → Prop
  | .text .. => True
  | .tag kind place code =>
    Meets (fun found => (∀ t ∈ found.1, G.tokens t) ∧ G.places found.2) (Blames G)
      (Token.ofCode (codePlace kind place) code)

namespace Draft

def Grounded (G : Ground) (d : Draft) : Prop := ∀ block ∈ d.blocks, G.places block.place

theorem add_grounded (h : d.Grounded G) (node : Node) : (d.add node).Grounded G := by
  obtain ⟨blocks, nodes⟩ := d
  cases blocks with
  | nil => exact h
  | cons block rest => exact List.forall_mem_cons.2 (List.forall_mem_cons.1 h)

theorem push_blames (h : d.Grounded G) {block : OpenBlock} (own : G.places block.place) :
    Meets (Grounded G) (Blames G) (d.push block) := by
  unfold push
  split
  · exact List.forall_mem_cons.2 ⟨own, h⟩
  · exact .placed _ _ own

theorem turn_blames (h : d.Grounded G) {word : Token} (own : G.tokens word) :
    Meets (fun found => G.places found.1 ∧ ∀ block ∈ found.2.2, G.places block.place) (Blames G)
      (d.turn word) := by
  unfold turn
  split
  · exact .placed _ _ (G.place own)
  · rename_i block rest blocks
    unfold Grounded at h
    rw [blocks, List.forall_mem_cons] at h
    split
    · exact h
    · exact .placed _ _ (G.place own)
    · exact .placed _ _ (G.place own)

theorem statement_blames (h : d.Grounded G) (hstop : G.places stop)
    (ht : ∀ t ∈ tokens, G.tokens t) :
    Meets (Grounded G) (Blames G) (d.statement stop tokens) := by
  unfold statement
  split
  · exact .placed _ _ hstop
  · rename_i t rest
    obtain ⟨own, behind⟩ := List.forall_mem_cons.1 ht
    split
    · exact (Expr.ofTokens_blames hstop behind).bind fun condition _ => push_blames h (G.place own)
    · refine (Expr.expect_keeps hstop .identifier rest behind).bind fun (item, more) hmore => ?_
      refine (Expr.expect_keeps hstop (.keyword .in_) more hmore).bind fun (_, more') hmore' => ?_
      exact (Expr.ofTokens_blames hstop hmore').bind fun collection _ => push_blames h (G.place own)
    · refine (turn_blames h own).bind fun (place, done, around) found => ?_
      exact (Expr.ofTokens_blames hstop behind).bind fun condition _ => List.forall_mem_cons.2 found
    · refine (Expr.finish_blames behind).bind fun _ _ => ?_
      exact (turn_blames h own).bind fun (place, done, around) found => List.forall_mem_cons.2 found
    · refine (Expr.finish_blames behind).bind fun _ _ => ?_
      split
      · exact .placed _ _ (G.place own)
      · rename_i block around blocks
        unfold Grounded at h
        rw [blocks, List.forall_mem_cons] at h
        exact add_grounded (d := ⟨around, _⟩) h.2 _
    · exact .placed _ _ (G.place own)

theorem part_blames (h : d.Grounded G) {p : Part} (hp : p.Grounded G) :
    Meets (Grounded G) (Blames G) (d.part p) := by
  unfold part
  split
  · exact add_grounded h _
  · refine Meets.bind hp fun (tokens, stop) found => ?_
    obtain ⟨own, hstop⟩ := found
    dsimp only
    split
    · exact statement_blames h hstop own
    · exact (Expr.ofTokens_blames hstop own).bind fun e _ => add_grounded h _
    · exact (Expr.ofTokens_blames hstop own).bind fun e _ => add_grounded h _

theorem finish_blames (h : d.Grounded G) : Meets (fun _ => True) (Blames G) d.finish := by
  unfold finish
  split
  · trivial
  · rename_i block rest blocks
    unfold Grounded at h
    rw [blocks, List.forall_mem_cons] at h
    exact .placed _ _ h.1

end Draft

namespace Document

theorem ofPartsCounted_blames (h : d.Grounded G) (count : Nat) {parts : List Part}
    (hp : ∀ p ∈ parts, p.Grounded G) :
    Meets (fun _ => True) (Blames G) (ofPartsCounted d count parts).1 := by
  induction parts generalizing d count with
  | nil => exact d.finish_blames h
  | cons p rest ih =>
    obtain ⟨own, others⟩ := List.forall_mem_cons.1 hp
    have met := d.part_blames h own
    simp only [ofPartsCounted]
    cases outcome : d.part p with
    | error fault =>
      rw [outcome] at met
      exact met
    | ok d' =>
      rw [outcome] at met
      exact ih met _ others

def ground (source : String) : Ground where
  tokens t := t ∈ Part.tokensOf source
  places l := l.Reached source.toList
  place := by
    intro t inside
    obtain ⟨parts, stop, kind, place, code, tokens, stop', cut, hp, scanned, ht⟩ :=
      Part.mem_tokensOf_iff.1 inside
    have met := Part.code_reached cut hp
    rw [scanned] at met
    exact met.1 t ht

theorem part_grounded {source : String} {parts : List Part}
    (h : Part.ofSource source = .ok (parts, stop)) {p : Part} (hp : p ∈ parts) :
    p.Grounded (ground source) := by
  cases p with
  | text place content => trivial
  | tag kind place code =>
    have met := Part.code_reached h hp
    rw [Part.Grounded]
    cases scanned : Token.ofCode (Part.codePlace kind place) code with
    | error fault =>
      rw [scanned] at met
      obtain ⟨reason, place', rfl, reached⟩ := met
      exact .placed reason place' reached
    | ok found =>
      rw [scanned] at met
      refine ⟨fun t ht => ?_, met.2⟩
      exact Part.mem_tokensOf_iff.2 ⟨parts, stop, kind, place, code, found.1, found.2, h, hp,
        scanned, ht⟩

/-- A fault has a place in the template, or is that of a literal of it. -/
theorem parse_blames (source : String) :
    Meets (fun _ => True) (Blames (ground source)) (parse source) := by
  have cut := Part.ofSource_reached source
  unfold parse
  cases hs : Part.ofSource source with
  | error fault =>
    rw [hs] at cut
    obtain ⟨reason, place, rfl, reached⟩ := cut
    exact .placed reason place reached
  | ok found =>
    obtain ⟨parts, stop⟩ := found
    exact ofPartsCounted_blames (by simp [Draft.Grounded, Draft.empty]) _ fun p hp =>
      part_grounded hs hp

/-- The tokens of a template are spelled as their kinds are. -/
theorem spelled_of_mem_tokensOf {source : String} {t : Token} (h : t ∈ Part.tokensOf source) :
    ∃ afterDot, Token.Spelled afterDot t.kind t.text.toList := by
  obtain ⟨parts, stop, kind, place, code, tokens, stop', -, -, scanned, ht⟩ :=
    Part.mem_tokensOf_iff.1 h
  exact (Token.scan_lexed scanned).of_mem ht

theorem parse_fst (r : Reader) (source : String) : (r.parse source).1 = parse source := by
  unfold Reader.parse parse
  cases Part.ofSource source with
  | error fault => rfl
  | ok found => exact (Reader.parts_eq _ _ _).1

/-- What checking a template says, by the outcome of parsing it. -/
theorem validate_fst (r : Reader) (source : String) :
    (r.validate source).1 =
      match parse source with
      | .ok _ => .ok none
      | .error (.at reason place) => .ok (some (ParseFault.message (.at reason place)))
      | .error (.numeral fault) => .error (.numeral fault) := by
  rw [← parse_fst r]
  unfold Reader.validate
  dsimp only
  split <;> simp [*]

/-- A template parses, or is told a place where it goes wrong, or holds a number literal whose
digits do not allow a number. Only that last fault gets through a check of the template. -/
theorem parse_outcomes (source : String) :
    ((∃ d, parse source = .ok d) ∨ (∃ reason place, parse source = .error (.at reason place)) ∨
      ∃ t ∈ Part.tokensOf source, ¬ t.Plain ∧
        ∃ fault, t.Misread fault ∧ parse source = .error (.numeral fault)) ∧
    ∀ r : Reader,
      ((r.validate source).1 = .ok none ↔ ∃ d, parse source = .ok d) ∧
      ((∃ message, (r.validate source).1 = .ok (some message)) ↔
        ∃ reason place, parse source = .error (.at reason place)) ∧
      ∀ fault, (r.validate source).1 = .error fault ↔
        ∃ n, fault = .numeral n ∧ parse source = .error (.numeral n) := by
  constructor
  · have met := parse_blames source
    cases outcome : parse source with
    | ok d => exact .inl ⟨d, rfl⟩
    | error fault =>
      rw [outcome] at met
      cases met with
      | placed reason place => exact .inr (.inl ⟨reason, place, rfl⟩)
      | @numeral t fault inside misread =>
        obtain ⟨afterDot, spelled⟩ := spelled_of_mem_tokensOf inside
        have plain : ¬ t.Plain := fun given => (Token.plain_iff spelled).1 given ⟨fault, misread⟩
        exact .inr (.inr ⟨t, inside, plain, fault, misread, rfl⟩)
  · intro r
    rw [validate_fst]
    cases outcome : parse source with
    | ok d => simp
    | error fault => cases fault <;> simp [eq_comm]

/-- Where a tag is one such literal, its fault is what comes out. -/
theorem parse_misread {t : Token} {fault : NumeralFault}
    (h : Token.Spelled false t.kind t.text.toList) (misread : t.Misread fault) :
    parse ("<%= " ++ t.text ++ " %>") = .error (.numeral fault) := by
  have legible : Token.Legible false [t] := ⟨h, fun _ _ given => given, trivial⟩
  have closed := Token.closed_space (Token.closed_layout legible)
  have layout : Token.layout [t] = t.text.toList := by
    have plain : t.kind ≠ .string := by
      cases misread with
      | integer hk => simp [hk]
      | float hk => simp [hk]
    simp [Token.layout, Token.layoutFrom, Token.source, Token.spelling, plain]
  have read : Expr.seen (' ' :: (Token.layout [t] ++ [' '])) = .error (.numeral fault) := by
    rw [Expr.seen, Token.scanned_space, Token.scanned_layout legible, ok_bind]
    exact Expr.ofTokens_misread misread.unplaced .start []
  obtain ⟨fault', found, same⟩ := Expr.exists_of_seen_error read (Part.codePlace .escaped .start)
  rw [output_source, ← layout, parse_output closed, found, map_error]
  cases fault' with
  | «at» => cases same
  | numeral n => rw [← same]; rfl

/-- A superscript two passes for a digit and is no number. -/
theorem superscript_without_place :
    ¬ ∀ source : String,
      ((∃ d, parse source = .ok d) ∨ ∃ reason place, parse source = .error (.at reason place)) ∧
      ∀ r : Reader, ∃ report, (r.validate source).1 = .ok report ∧
        (report = none ↔ ∃ d, parse source = .ok d) := by
  intro claimed
  have outcome : parse "<%= ² %>" = .error (.numeral (.notAnInteger "²")) := by
    have digits : Token.AllDigits "²".toList :=
      ⟨by simp, List.forall_mem_singleton.2 (by decide +kernel)⟩
    have misread : Token.Misread ⟨.integer, "²", .start, 1⟩ (.notAnInteger "²") := .integer rfl rfl
    have failed := parse_misread (.integer digits) misread
    exact failed
  obtain ⟨parsed | ⟨reason, place, failed⟩, -⟩ := claimed "<%= ² %>"
  · obtain ⟨d, parsed⟩ := parsed
    rw [outcome] at parsed
    cases parsed
  · rw [outcome] at failed
    cases failed

end Document
end Stencil
