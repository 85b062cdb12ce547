import Stencil.Proofs.Part.Scan
import Stencil.Proofs.Token.Source

/-! Tokens written as the code of a tag: one blank between neighbours and none around dots, or a
blank behind each. Such a code is scanned into the same tokens, and no tag ends inside of it. -/
namespace Stencil.Token
open Outcome

def gap (t u : Token) : List Char := if t.kind = .dot ∨ u.kind = .dot then [] else [' ']

def layoutFrom (t : Token) : List Token → List Char
  | [] => []
  | u :: rest => gap t u ++ u.source ++ layoutFrom u rest

def layout : List Token → List Char
  | [] => []
  | t :: rest => t.source ++ layoutFrom t rest

def Indexed : List Token → Prop
  | d :: n :: _ => d.kind = .dot ∧ n.kind = .integer
  | _ => False

/-- Each token has a text of its kind, and none runs into the next one. -/
def Legible (afterDot : Bool) : List Token → Prop
  | [] => True
  | t :: rest => Spelled afterDot t.kind t.text.toList ∧
    (t.kind = .integer → afterDot = false → ¬ Indexed rest) ∧
      Legible (t.kind == .dot) rest

theorem Spelled.dot {afterDot : Bool} {text : List Char} (h : Spelled afterDot .dot text) :
    text = ['.'] := by
  cases h with
  | symbol found => exact symbols_dot _ (mem_symbols found) rfl

/-- Only an integer starts with a digit behind a dot. -/
theorem Spelled.starts {kind : Kind} {text more : List Char} {c : Char} (h : Spelled true kind text)
    (hk : kind ≠ .integer) (hc : spelling kind text = c :: more) : Text.isDigit c = false := by
  cases h with
  | symbol found =>
    obtain ⟨d, rest, rfl, inside⟩ := symbol_cons found
    rw [spelling, if_neg (symbols_ne_string _ (mem_symbols found))] at hc
    obtain ⟨rfl, -⟩ := List.cons.inj hc
    exact (symbolChars_plain _ inside).1
  | string =>
    obtain ⟨rfl, -⟩ := List.cons.inj hc
    decide
  | integer => exact absurd rfl hk
  | float behind => cases behind
  | name isName =>
    obtain ⟨d, rest, rfl, start, -⟩ := isName.exists_cons
    obtain ⟨rfl, -⟩ := List.cons.inj hc
    exact isDigit_of_isNameStart start
  | keyword word behind => cases behind

theorem source_dot {t : Token} (h : t.kind = .dot) (ht : Spelled false t.kind t.text.toList) :
    t.source = ['.'] := by
  rw [h] at ht
  rw [source, h, ht.dot]
  rfl

theorem apart_layoutFrom {t : Token} {rest : List Token} (h : Legible (t.kind == .dot) rest)
    (ht : t.kind ≠ .dot) :
    Apart (layoutFrom t rest ++ [' ']) := by
  cases rest with
  | nil => simp [layoutFrom, Apart]
  | cons u more =>
    rw [beq_false_of_ne ht] at h
    by_cases hu : u.kind = .dot
    · simp [layoutFrom, gap, hu, source_dot hu h.1, Apart]
    · simp [layoutFrom, gap, ht, hu, Apart]

theorem noFraction_layoutFrom {t : Token} {rest : List Token} (h : Legible (t.kind == .dot) rest)
    (ht : t.kind = .integer)
    (hi : ¬ Indexed rest) : NoFraction (layoutFrom t rest ++ [' ']) := by
  intro c tail heq
  have hd : t.kind ≠ .dot := by rw [ht]; nofun
  rw [beq_false_of_ne hd] at h
  cases rest with
  | nil => simp [layoutFrom] at heq
  | cons u more =>
    by_cases hu : u.kind = .dot
    · simp only [layoutFrom, gap, hu, source_dot hu h.1, or_true, if_true, List.nil_append,
        List.cons_append, List.cons.injEq, true_and] at heq
      cases more with
      | nil =>
        obtain ⟨rfl, -⟩ := List.cons.inj heq
        decide
      | cons v more =>
        have spelled : Spelled true v.kind v.text.toList := by simpa [hu] using h.2.2.1
        have hv : v.kind ≠ .integer := fun hv => hi ⟨hu, hv⟩
        simp only [layoutFrom, gap, hu, true_or, if_true, List.nil_append] at heq
        cases hs : v.source with
        | nil =>
          obtain ⟨d, ds, hs', -⟩ :=
            lexeme_spelling spelled (fun _ => apart_space []) (fun hn => absurd hn hv)
          rw [source, hs'] at hs
          cases hs
        | cons d ds =>
          rw [hs] at heq
          obtain ⟨rfl, -⟩ := List.cons.inj heq
          exact spelled.starts hv hs
    · simp [layoutFrom, gap, hd, hu] at heq

/-- The scan of a code that tokens were written as gives these tokens. -/
theorem scanned_layout {afterDot : Bool} {tokens : List Token} (h : Legible afterDot tokens) :
    scanned afterDot (layout tokens ++ [' ']) = .ok (tokens.map unplaced) := by
  induction tokens generalizing afterDot with
  | nil => simp [layout]
  | cons t rest ih =>
    obtain ⟨spelled, whole, legible⟩ := h
    have behind : scanned (t.kind == .dot) (layoutFrom t rest ++ [' ']) =
        .ok (rest.map unplaced) := by
      cases rest with
      | nil => simp [layoutFrom]
      | cons u more =>
        rw [← ih legible]
        by_cases hg : t.kind = .dot ∨ u.kind = .dot
        · simp [layoutFrom, gap, hg, layout]
        · simp [layoutFrom, gap, hg, layout]
    rw [layout, source, List.append_assoc, scanned_spelling spelled (apart_layoutFrom legible)
      (fun ht hb => noFraction_layoutFrom legible ht (whole ht hb)), behind]
    simp [unplaced]

def Mute (c : Char) : Prop := c ≠ '"' ∧ c ≠ '\'' ∧ c ≠ '%'

theorem closed_mute_iff {cs rest : List Char} (h : ∀ c ∈ cs, Mute c) :
    Quotes.Closed .outside (cs ++ rest) ↔ Quotes.Closed .outside rest := by
  induction cs with
  | nil => rfl
  | cons c cs ih =>
    obtain ⟨⟨double, single, percent⟩, later⟩ := List.forall_mem_cons.1 h
    have open_ : ¬(Quotes.State.outside = .outside ∧ Part.closer <+: c :: (cs ++ rest)) := by
      intro given
      obtain ⟨-, tail, heq⟩ := given
      exact percent (List.cons.inj heq).1.symm
    rw [List.cons_append, Quotes.closed_cons_iff, and_iff_right open_, Quotes.step,
      if_neg (not_or.2 ⟨double, single⟩)]
    exact ih later

theorem closed_mute {cs rest : List Char} (h : ∀ c ∈ cs, Mute c)
    (hr : Quotes.Closed .outside rest) :
    Quotes.Closed .outside (cs ++ rest) := (closed_mute_iff h).2 hr

theorem closed_percent {rest : List Char} (ha : Apart rest) (hr : Quotes.Closed .outside rest) :
    Quotes.Closed .outside ('%' :: rest) := by
  rw [Quotes.closed_cons_iff]
  refine ⟨?_, hr⟩
  intro given
  obtain ⟨-, tail, heq⟩ := given
  obtain rfl : rest = '>' :: tail := (List.cons.inj heq).2.symm
  rcases ha '>' rfl with h | h <;> cases h

theorem closed_guarded {mark : Char} (hm : IsMark mark) (cs : List Char) {rest : List Char}
    (hr : Quotes.Closed .outside rest) :
    Quotes.Closed (.inside mark) (guarded mark cs ++ mark :: rest) := by
  have plain : mark ≠ '\\' := by rcases hm with rfl | rfl <;> decide
  induction cs with
  | nil => simpa [guarded, Quotes.closed_cons_iff, Quotes.step, plain] using hr
  | cons c cs ih =>
    rw [guarded_cons, List.append_assoc]
    by_cases hc : c = mark ∨ c = '\\'
    · rw [if_pos hc, List.cons_append, List.cons_append, List.nil_append]
      simpa [Quotes.closed_cons_iff, Quotes.step] using ih
    · rw [if_neg hc, List.cons_append, List.nil_append]
      rw [not_or] at hc
      simpa [Quotes.closed_cons_iff, Quotes.step, hc.1, hc.2] using ih

/-- Between its quotes a text closes nothing. -/
theorem closed_quoteBy {mark : Char} (hm : IsMark mark) (cs : List Char) {rest : List Char}
    (hr : Quotes.Closed .outside rest) : Quotes.Closed .outside (quoteBy mark cs ++ rest) := by
  have opened : Quotes.step .outside mark = .inside mark := if_pos hm
  have other : mark ≠ '%' := by rcases hm with rfl | rfl <;> decide
  rw [quoteBy, List.cons_append, List.append_assoc, Quotes.closed_cons_iff, opened]
  refine ⟨fun given => ?_, closed_guarded hm cs hr⟩
  obtain ⟨-, tail, heq⟩ := given
  exact other (List.cons.inj heq).1.symm

theorem mute_of_digit {c : Char} (h : Text.isDigit c = true) : Mute c := by
  refine ⟨?_, ?_, ?_⟩ <;> intro same <;> subst same <;> revert h <;> decide

theorem mute_of_part {c : Char} (h : isNamePart c = true) : Mute c := by
  refine ⟨?_, ?_, ?_⟩ <;> intro same <;> subst same <;> revert h <;> decide

theorem symbols_mute :
    ∀ p ∈ symbols, p.2 = ['%'] ∧ p.1 ≠ .dot ∨ ∀ c ∈ p.2, c ≠ '"' ∧ c ≠ '\'' ∧ c ≠ '%' := by
  have mute : (symbols.all fun p =>
      p.2 == ['%'] && p.1 != .dot || p.2.all fun c => c != '"' && c != '\'' && c != '%') =
        true := by
    decide
  simpa only [List.all_eq_true, Bool.or_eq_true, Bool.and_eq_true, beq_iff_eq, bne_iff_ne,
    and_assoc] using mute

theorem closed_spelling {afterDot : Bool} {kind : Kind} {text rest : List Char}
    (h : Spelled afterDot kind text)
    (hr : kind ≠ .dot → Apart rest) (closed : Quotes.Closed .outside rest) :
    Quotes.Closed .outside (spelling kind text ++ rest) := by
  cases h with
  | symbol found =>
    rw [spelling, if_neg (symbols_ne_string _ (mem_symbols found))]
    obtain ⟨rfl, hk⟩ | mute := symbols_mute _ (mem_symbols found)
    · exact closed_percent (hr hk) closed
    · exact closed_mute mute closed
  | string =>
    have quoted : quote text = quoteBy '"' text := rfl
    rw [spelling, if_pos rfl, quoted]
    exact closed_quoteBy (.inl rfl) text closed
  | integer digits => exact closed_mute (fun c hc => mute_of_digit (digits.2 c hc)) closed
  | @float whole fraction _ hw hf =>
    refine closed_mute ?_ closed
    refine List.forall_mem_append.2 ⟨fun c hc => mute_of_digit (hw.2 c hc),
      List.forall_mem_cons.2 ⟨?_, fun c hc => mute_of_digit (hf.2 c hc)⟩⟩
    exact ⟨by decide, by decide, by decide⟩
  | name isName =>
    obtain ⟨-, -, -, -, parts⟩ := isName.exists_cons
    exact closed_mute (fun c hc => mute_of_part (parts c hc)) closed
  | keyword word =>
    obtain ⟨-, -, -, -, parts⟩ := (isName_keyword word).exists_cons
    exact closed_mute (fun c hc => mute_of_part (parts c hc)) closed

theorem closed_space {rest : List Char} (closed : Quotes.Closed .outside rest) :
    Quotes.Closed .outside (' ' :: rest) := by
  have mute : ∀ c ∈ [' '], Mute c := by simp [Mute]
  exact closed_mute mute closed

/-- No tag ends inside of a code that tokens were written as. -/
theorem closed_layout {afterDot : Bool} {tokens : List Token} (h : Legible afterDot tokens) :
    Quotes.Closed .outside (layout tokens ++ [' ']) := by
  have blank : Quotes.Closed .outside [' '] := closed_space ⟨rfl, Quotes.guarded_nil _⟩
  induction tokens generalizing afterDot with
  | nil => exact blank
  | cons t rest ih =>
    obtain ⟨spelled, whole, legible⟩ := h
    rw [layout, source, List.append_assoc]
    refine closed_spelling spelled (apart_layoutFrom legible) ?_
    cases rest with
    | nil => exact blank
    | cons u more =>
      have later := ih legible
      by_cases hg : t.kind = .dot ∨ u.kind = .dot
      · simpa [layoutFrom, gap, hg, layout] using later
      · simpa [layoutFrom, gap, hg, layout] using closed_space later

def spread (tokens : List Token) : List Char := tokens.flatMap fun t => t.source ++ [' ']

theorem spread_cons (t : Token) (rest : List Token) :
    spread (t :: rest) = spelling t.kind t.text.toList ++ ' ' :: spread rest := by
  simp [spread, source]

theorem noFraction_space (rest : List Char) : NoFraction (' ' :: rest) := nofun

/-- Every row of tokens that a scan gives is given by the scan of its spread text. -/
theorem scanned_spread {afterDot : Bool} {tokens : List Token} (h : Lexed afterDot tokens) :
    scanned afterDot (spread tokens ++ [' ']) = .ok (tokens.map unplaced) := by
  induction tokens generalizing afterDot with
  | nil => simp [spread]
  | cons t rest ih =>
    obtain ⟨spelled, lexed⟩ := h
    rw [spread_cons, List.append_assoc, List.cons_append,
      scanned_spelling spelled (fun _ => apart_space _)
      (fun _ _ => noFraction_space _), scanned_space, ih lexed]
    simp [unplaced]

theorem closed_spread {afterDot : Bool} {tokens : List Token} (h : Lexed afterDot tokens) :
    Quotes.Closed .outside (spread tokens ++ [' ']) := by
  induction tokens generalizing afterDot with
  | nil => exact closed_space ⟨rfl, Quotes.guarded_nil _⟩
  | cons t rest ih =>
    rw [spread_cons, List.append_assoc, List.cons_append]
    exact closed_spelling h.1 (fun _ => apart_space _) (closed_space (ih h.2))

end Stencil.Token
