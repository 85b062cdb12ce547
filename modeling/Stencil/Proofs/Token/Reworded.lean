import Stencil.Proofs.Document.Nesting
import Stencil.Proofs.Token.Layout
import Stencil.Proofs.Token.Standing

/-! The keyword that a code starts with, and the code with another keyword in its place. All tokens
behind it stay what they are. -/
namespace Stencil.Token
open Outcome

def reword (word : Keyword) (code : List Char) : List Char :=
  code.takeWhile isSpace ++ (word.text.toList ++ (code.dropWhile isSpace).dropWhile isNamePart)

structure Worded (word : Keyword) (blanks rest code : List Char) : Prop where
  blank : ∀ c ∈ blanks, isSpace c = true
  ends : ∀ c ∈ rest.head?, isNamePart c = false
  whole : code = blanks ++ (word.text.toList ++ rest)

variable {word : Keyword} {blanks rest code : List Char} {tokens : List Token}

theorem not_part_dropWhile (cs : List Char) :
    ∀ c ∈ (cs.dropWhile isNamePart).head?, isNamePart c = false := by
  intro c hc
  have stopped := List.head?_dropWhile_not isNamePart cs
  rw [hc] at stopped
  exact stopped

theorem symbols_keyword? : ∀ p ∈ symbols, p.1.keyword? = none := by decide

/-- What is read as a keyword is the whole name that stands there. -/
theorem worded_of_lexeme {c : Char} {l : Lexeme} (found : lexeme false c rest = .ok l)
    (keyword : l.kind.keyword? = some word) :
    Worded word [] ((c :: rest).dropWhile isNamePart) (c :: rest) := by
  obtain ⟨kind, text, width⟩ := l
  cases kind with
  | keyword word' =>
    obtain rfl : word' = word := Option.some.inj keyword
    have named : leadingName (c :: rest ++ '%' :: []) = text := lexeme_opens found []
    rw [leadingName, takeWhile_append_stop (by decide)] at named
    have spelled : text = word'.text.toList := by
      cases lexeme_spelled found with
      | symbol symbol => cases symbols_keyword? _ (mem_symbols symbol)
      | keyword => rfl
    refine ⟨nofun, not_part_dropWhile _, ?_⟩
    rw [List.nil_append, ← spelled, ← named, List.takeWhile_append_dropWhile]
  | _ => cases keyword

theorem worded_of_leading? (h : leading? code = some word) :
    ∃ blanks rest, Worded word blanks rest code := by
  induction code with
  | nil => cases h
  | cons c cs ih =>
    rw [leading?] at h
    split at h
    · rename_i space
      obtain ⟨blanks, rest, blank, ends, rfl⟩ := ih h
      exact ⟨c :: blanks, rest, List.forall_mem_cons.2 ⟨space, blank⟩, ends, rfl⟩
    · split at h
      · rename_i l found
        exact ⟨[], _, worded_of_lexeme found h⟩
      · cases h

theorem Worded.reword (h : Worded word blanks rest code) (other : Keyword) :
    Worded other blanks rest (reword other code) := by
  obtain ⟨blank, ends, rfl⟩ := h
  refine ⟨blank, ends, ?_⟩
  obtain ⟨c, cs, heq, start, parts⟩ := (isName_keyword word).exists_cons
  have stop : ∀ d ∈ (word.text.toList ++ rest).head?, isSpace d = false := by
    intro d hd
    rw [heq] at hd
    cases hd
    exact space_ne_name start
  obtain ⟨taken, dropped⟩ := span_append blank stop
  rw [Token.reword, taken, dropped, (span_append parts ends).2]

example : String.ofList (reword .if_ " elsif(a.elsif) ".toList) = " if(a.elsif) " := by
  decide +kernel

theorem scanned_blanks {afterDot : Bool} {cs : List Char} (h : ∀ c ∈ blanks, isSpace c = true) :
    scanned afterDot (blanks ++ cs) = scanned afterDot cs := by
  induction blanks with
  | nil => rfl
  | cons c blanks ih =>
    obtain ⟨space, later⟩ := List.forall_mem_cons.1 h
    rw [List.cons_append, scanned, scan, if_pos space, seen_scan, ih later]

/-- The first token is the word, and the rest of the code gives the others. -/
theorem Worded.scanned (h : Worded word blanks rest code) :
    scanned false code = (scanned false rest).map (bare (.keyword word) word.text :: ·) := by
  obtain ⟨blank, ends, rfl⟩ := h
  obtain ⟨c, cs, heq, space, found⟩ := lexeme_keyword word ends
  rw [heq] at found
  rw [scanned_blanks blank, heq, scanned_lexeme space found, ← heq, String.ofList_toList]
  rfl

theorem mute_of_space {c : Char} (h : isSpace c = true) : Mute c := by
  refine ⟨?_, ?_, ?_⟩ <;> rintro rfl <;> revert h <;> decide

theorem Worded.closed_iff (h : Worded word blanks rest code) :
    Quotes.Closed .outside code ↔ Quotes.Closed .outside rest := by
  obtain ⟨blank, -, rfl⟩ := h
  obtain ⟨-, -, -, -, parts⟩ := (isName_keyword word).exists_cons
  rw [closed_mute_iff fun c hc => mute_of_space (blank c hc),
    closed_mute_iff fun c hc => mute_of_part (parts c hc)]

/-- A code that starts with a word has none of the signs of an output in front. -/
theorem Worded.begins (h : Worded word blanks rest code) : Part.Begins .statement code := by
  obtain ⟨blank, -, rfl⟩ := h
  intro _
  cases blanks with
  | nil =>
    obtain ⟨c, cs, heq, start, -⟩ := (isName_keyword word).exists_cons
    rw [heq]
    constructor <;> rintro ⟨⟩ <;> revert start <;> decide
  | cons c blanks =>
    have space := blank c List.mem_cons_self
    constructor <;> rintro ⟨⟩ <;> revert space <;> decide

end Stencil.Token
