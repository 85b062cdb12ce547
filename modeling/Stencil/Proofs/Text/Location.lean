import Mathlib.Data.List.Induction
import Stencil.Text.Location

/-! Places that fit a text. A cursor counts lines and columns on its way; where it stands they can
be told from the line feeds of the text before it. -/
namespace Stencil.Location
variable {text before rest : List Char} {l : Location} {p : Nat}

def breaks (text : List Char) (p : Nat) : List Nat :=
  (List.range p).filter fun i => text[i]? = some '\n'

/-- Line and column are those of the character at the offset, or of the end of the text: lines are
counted from one, columns from the last line feed, or from one place before the text. -/
structure Fits (text : List Char) (l : Location) : Prop where
  within : l.offset ≤ text.length
  line : l.line = 1 + (breaks text l.offset).length
  column : (l.column : Int) = l.offset - ((breaks text l.offset).getLast?.elim (-1) Int.ofNat)

theorem breaks_succ (text : List Char) (p : Nat) :
    breaks text (p + 1) = breaks text p ++ if text[p]? = some '\n' then [p] else [] := by
  rw [breaks, List.range_succ, List.filter_append]
  by_cases h : text[p]? = some '\n' <;> simp [breaks, h]

theorem start_fits (text : List Char) : start.Fits text := ⟨Nat.zero_le _, rfl, rfl⟩

/-- A cursor that gets over the character it stands at fits the text again. -/
theorem Fits.next (h : l.Fits text) {c : Char} (here : text[l.offset]? = some c) :
    (l.next c).Fits text := by
  obtain ⟨inside, -⟩ := List.getElem?_eq_some_iff.1 here
  have passed := breaks_succ text l.offset
  rw [here] at passed
  obtain ⟨-, line, column⟩ := h
  by_cases feed : c = '\n'
  · rw [if_pos (congrArg some feed)] at passed
    rw [Location.next, if_pos feed]
    refine ⟨inside, ?_, ?_⟩
    · rw [passed, List.length_append, line]
      rfl
    · rw [passed, List.getLast?_append, List.getLast?_singleton, Option.some_or, Option.elim_some,
        Int.ofNat_eq_natCast]
      dsimp only
      omega
  · rw [if_neg (fun same => feed (Option.some.inj same)), List.append_nil] at passed
    rw [Location.next, if_neg feed]
    refine ⟨inside, ?_, ?_⟩
    · rw [passed, line]
    · rw [passed]
      dsimp only
      omega

def Reached (text : List Char) (l : Location) : Prop :=
  ∃ before, before <+: text ∧ l = start.after before

theorem reached_after (before rest : List Char) : (start.after before).Reached (before ++ rest) :=
  ⟨before, List.prefix_append before rest, rfl⟩

theorem Reached.fits (h : l.Reached text) : l.Fits text := by
  obtain ⟨before, ⟨rest, rfl⟩, rfl⟩ := h
  induction before using List.reverseRecOn generalizing rest with
  | nil => exact start_fits rest
  | append_singleton before c ih =>
    rw [after_append, List.append_assoc]
    refine (ih ([c] ++ rest)).next ?_
    rw [after_offset, start, Nat.zero_add, List.getElem?_append_right Nat.le.refl, Nat.sub_self]
    rfl

end Stencil.Location
