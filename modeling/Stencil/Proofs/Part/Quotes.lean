import Mathlib.Data.List.Infix
import Stencil.Part

/-! The quote rule of tags as a machine that reads one character after another. The search for a
closing delimiter agrees with it: it stops at the first delimiter outside quotes, and fails if there
is none. -/
namespace Stencil.Quotes

inductive State where
  | outside
  | inside (quote : Char)
  | skipping (quote : Char)
  deriving DecidableEq, Repr

def step : State → Char → State
  | .outside, c => if c = '"' ∨ c = '\'' then .inside c else .outside
  | .inside quote, c =>
    if c = '\\' then .skipping quote else if c = quote then .outside else .inside quote
  | .skipping quote, _ => .inside quote

def run (s : State) (cs : List Char) : State := cs.foldl step s

@[simp] theorem run_cons (s : State) (c : Char) (cs : List Char) :
    run s (c :: cs) = run (step s c) cs := rfl

def Guarded (s : State) (cs : List Char) : Prop :=
  ∀ before after, cs = before ++ Part.closer ++ after → run s before ≠ .outside

/-- What may stand between the delimiters of a tag: it ends outside quotes, and closing delimiters
stand inside quotes only. -/
def Closed (s : State) (code : List Char) : Prop := run s code = .outside ∧ Guarded s code

theorem guarded_nil (s : State) : Guarded s [] := by
  intro before after h
  simp [Part.closer] at h

/-- One character further: the delimiter does not start here, and none follows. -/
theorem guarded_cons_iff (s : State) (c : Char) (cs : List Char) :
    Guarded s (c :: cs) ↔ ¬ (s = .outside ∧ Part.closer <+: c :: cs) ∧ Guarded (step s c) cs := by
  constructor
  · intro h
    constructor
    · intro given
      obtain ⟨rfl, after, hc⟩ := given
      exact h [] after (by simpa using hc.symm) rfl
    · intro before after hc
      exact h (c :: before) after (by simp [hc])
  · intro given before after hc
    obtain ⟨here, later⟩ := given
    cases before with
    | nil => intro hs; exact here ⟨hs, after, by simpa using hc.symm⟩
    | cons b before =>
      obtain ⟨hb, hrest⟩ := List.cons.inj hc
      subst hb
      exact later before after hrest

def ofQuote : Option Char → State
  | none => .outside
  | some quote => .inside quote

theorem step_outside (c : Char) :
    step .outside c = ofQuote (if c = '"' ∨ c = '\'' then some c else none) := by
  simp only [step]
  split <;> rfl

theorem step_inside (quote c : Char) (h : c ≠ '\\') :
    step (.inside quote) c = ofQuote (if c = quote then none else some quote) := by
  simp only [step, if_neg h]
  split <;> rfl

/-- The search ends without a delimiter exactly where none stands outside quotes. -/
theorem codeRun_eq_none_iff (q : Option Char) (cs : List Char) :
    Part.codeRun q cs = none ↔ Guarded (ofQuote q) cs := by
  fun_induction Part.codeRun q cs with
  | case1 rest =>
    simp only [reduceCtorEq, false_iff]
    intro h
    exact h [] rest rfl rfl
  | case2 c rest hc ih =>
    have here : ¬ Part.closer <+: c :: rest := by
      intro given
      obtain ⟨after, heq⟩ := given
      obtain ⟨h₁, h₂⟩ := List.cons.inj heq
      exact hc after h₁.symm h₂.symm
    rw [Option.map_eq_none_iff, ih, guarded_cons_iff, ofQuote, step_outside]
    simp [here]
  | case3 quote e rest ih =>
    rw [Option.map_eq_none_iff, ih, guarded_cons_iff, guarded_cons_iff]
    simp [ofQuote, step]
  | case4 quote c rest hc ih =>
    rw [Option.map_eq_none_iff, ih, guarded_cons_iff]
    by_cases hb : c = '\\'
    · -- a backslash at the very end skips nothing
      obtain rfl : rest = [] := by
        cases rest with
        | nil => rfl
        | cons e rest => exact absurd rfl (hc e rest hb)
      simp [ofQuote, guarded_nil]
    · simp only [ofQuote, step_inside quote c hb]
      simp
  | case5 q => simp [guarded_nil]

theorem closed_cons_iff (s : State) (c : Char) (cs : List Char) :
    Closed s (c :: cs) ↔ ¬ (s = .outside ∧ Part.closer <+: c :: cs) ∧ Closed (step s c) cs := by
  simp only [Closed, guarded_cons_iff, run_cons]
  tauto

/-- The search finds code that is closed, and a delimiter right behind it. -/
theorem closed_of_codeRun {q : Option Char} {cs code : List Char}
    (h : Part.codeRun q cs = some code) :
    Closed (ofQuote q) code ∧ ∃ rest, cs = code ++ Part.closer ++ rest := by
  fun_induction Part.codeRun q cs generalizing code with
  | case1 rest =>
    obtain rfl : [] = code := by simpa using h
    exact ⟨⟨rfl, guarded_nil _⟩, rest, rfl⟩
  | case2 c rest hc ih =>
    obtain ⟨inner, found, rfl⟩ := Option.map_eq_some_iff.1 h
    obtain ⟨closed, after, rfl⟩ := ih found
    refine ⟨(closed_cons_iff ..).2 ⟨?_, by rwa [ofQuote, step_outside]⟩, after, rfl⟩
    intro given
    obtain ⟨-, more, heq⟩ := given
    obtain ⟨h₁, h₂⟩ := List.cons.inj heq
    exact hc (more ++ Part.closer ++ after) h₁.symm (by simp [← h₂])
  | case3 quote e rest ih =>
    obtain ⟨inner, found, rfl⟩ := Option.map_eq_some_iff.1 h
    obtain ⟨closed, after, rfl⟩ := ih found
    refine ⟨?_, after, rfl⟩
    rw [closed_cons_iff, closed_cons_iff]
    simpa [ofQuote, step] using closed
  | case4 quote c rest hc ih =>
    obtain ⟨inner, found, rfl⟩ := Option.map_eq_some_iff.1 h
    obtain ⟨closed, after, rfl⟩ := ih found
    refine ⟨?_, after, rfl⟩
    have hb : c ≠ '\\' := by
      intro same
      subst same
      cases inner with
      | nil => exact hc _ _ rfl rfl
      | cons e inner => exact hc _ _ rfl rfl
    rw [closed_cons_iff, ofQuote, step_inside quote c hb]
    exact ⟨by simp, closed⟩
  | case5 q => simp at h

/-- Outside quotes, text that begins with a delimiter begins with no code. -/
theorem not_closed_of_closer {c : Char} {v x y : List Char}
    (h : Part.closer ++ x = c :: v ++ Part.closer ++ y) :
    ¬ Closed .outside (c :: v) := by
  intro closed
  apply ((closed_cons_iff ..).1 closed).1
  refine ⟨rfl, ?_⟩
  cases v with
  | nil => simp [Part.closer] at h
  | cons d v =>
    obtain ⟨rfl, rfl, -⟩ : '%' = c ∧ '>' = d ∧ x = v ++ Part.closer ++ y := by
      simpa [Part.closer] using h
    exact ⟨v, rfl⟩

/-- Code with a delimiter behind it can be told from what follows in one way only. -/
theorem closed_inj {s : State} {u v x y : List Char} (hu : Closed s u) (hv : Closed s v)
    (h : u ++ Part.closer ++ x = v ++ Part.closer ++ y) : u = v := by
  induction u generalizing s v with
  | nil =>
    obtain rfl : s = .outside := hu.1
    cases v with
    | nil => rfl
    | cons c v => exact absurd hv (not_closed_of_closer h)
  | cons c u ih =>
    cases v with
    | nil =>
      obtain rfl : s = .outside := hv.1
      exact absurd hu (not_closed_of_closer h.symm)
    | cons d v =>
      obtain ⟨rfl, tail⟩ := List.cons.inj h
      rw [ih ((closed_cons_iff ..).1 hu).2 ((closed_cons_iff ..).1 hv).2 tail]

/-- The search finds any closed code with a delimiter right behind it. -/
theorem codeRun_append {q : Option Char} {code : List Char} (h : Closed (ofQuote q) code)
    (rest : List Char) :
    Part.codeRun q (code ++ Part.closer ++ rest) = some code := by
  cases found : Part.codeRun q (code ++ Part.closer ++ rest) with
  | none => exact absurd h.1 ((codeRun_eq_none_iff ..).1 found code rest rfl)
  | some other =>
    obtain ⟨closed, after, heq⟩ := closed_of_codeRun found
    rw [closed_inj h closed heq]

end Stencil.Quotes
