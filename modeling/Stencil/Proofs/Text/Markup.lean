import Mathlib.Data.List.Infix
import Stencil.Text.Markup

/-! Text made safe inside markup can be read back: what is left of the characters with a meaning are
the ampersands of entities, and an entity stands for one character. -/
namespace Stencil.Text

def entities : List (List Char × Char) :=
  [(['&', 'a', 'm', 'p', ';'], '&'), (['&', 'l', 't', ';'], '<'), (['&', 'g', 't', ';'], '>'),
    (['&', '#', '3', '4', ';'], '"'), (['&', '#', '3', '9', ';'], '\'')]

def replaceEntities : List Char → List Char
  | '&' :: 'a' :: 'm' :: 'p' :: ';' :: rest => '&' :: replaceEntities rest
  | '&' :: 'l' :: 't' :: ';' :: rest => '<' :: replaceEntities rest
  | '&' :: 'g' :: 't' :: ';' :: rest => '>' :: replaceEntities rest
  | '&' :: '#' :: '3' :: '4' :: ';' :: rest => '"' :: replaceEntities rest
  | '&' :: '#' :: '3' :: '9' :: ';' :: rest => '\'' :: replaceEntities rest
  | c :: rest => c :: replaceEntities rest
  | [] => []

def unescapeMarkup (s : String) : String := String.ofList (replaceEntities s.toList)

theorem replaceEntities_cons {c : Char} (h : c ≠ '&') (rest : List Char) :
    replaceEntities (c :: rest) = c :: replaceEntities rest := by
  rw [replaceEntities] <;> simp [h]

theorem replaceEntities_entity {e : List Char × Char} (h : e ∈ entities) (rest : List Char) :
    replaceEntities (e.1 ++ rest) = e.2 :: replaceEntities rest := by
  simp only [entities, List.mem_cons, List.not_mem_nil, or_false] at h
  rcases h with rfl | rfl | rfl | rfl | rfl <;> rfl

/-- A character becomes its entity, or stays as it is if it has none. -/
theorem escapeMarkupChar_cases (c : Char) :
    (escapeMarkupChar c, c) ∈ entities ∨ c ≠ '&' ∧ escapeMarkupChar c = [c] := by
  by_cases special : c ∈ entities.map Prod.snd
  · left
    simp only [entities, List.map_cons, List.map_nil, List.mem_cons, List.not_mem_nil,
      or_false] at special
    rcases special with rfl | rfl | rfl | rfl | rfl <;> decide
  · right
    have ordinary : c ≠ '&' ∧ c ≠ '<' ∧ c ≠ '>' ∧ c ≠ '"' ∧ c ≠ '\'' := by
      simpa [entities] using special
    exact ⟨ordinary.1, by simp [escapeMarkupChar, ordinary]⟩

theorem replaceEntities_escaped (cs : List Char) :
    replaceEntities (cs.flatMap escapeMarkupChar) = cs := by
  induction cs with
  | nil => rfl
  | cons c cs ih =>
    rw [List.flatMap_cons]
    rcases escapeMarkupChar_cases c with entity | ⟨plain, same⟩
    · rw [replaceEntities_entity entity, ih]
    · rw [same, List.singleton_append, replaceEntities_cons plain, ih]

/-- An ampersand in an entity is its first character. -/
theorem ampersand_entity {e : List Char × Char} (h : e ∈ entities) {rest more : List Char}
    (inside : '&' :: rest <:+ e.1 ++ more) : '&' :: rest = e.1 ++ more ∨ '&' :: rest <:+ more := by
  simp only [entities, List.mem_cons, List.not_mem_nil, or_false] at h
  rcases h with rfl | rfl | rfl | rfl | rfl <;> simpa [List.suffix_cons_iff] using inside

/-- Every ampersand of an escaped text starts an entity. -/
theorem ampersand_escaped {cs rest : List Char} (h : '&' :: rest <:+ cs.flatMap escapeMarkupChar) :
    ∃ e ∈ entities, e.1 <+: '&' :: rest := by
  induction cs with
  | nil => simp at h
  | cons c cs ih =>
    rw [List.flatMap_cons] at h
    rcases escapeMarkupChar_cases c with entity | ⟨plain, same⟩
    · rcases ampersand_entity entity h with whole | later
      · exact ⟨_, entity, _, whole.symm⟩
      · exact ih later
    · rw [same, List.singleton_append, List.suffix_cons_iff] at h
      rcases h with here | later
      · exact absurd (List.cons.inj here).1.symm plain
      · exact ih later

/-- A piece of markup shows a text: it has no character with a meaning but the ampersands of
entities, and with its entities replaced it is that text. -/
structure Shows (piece text : String) : Prop where
  plain : ∀ c ∈ piece.toList, c ≠ '<' ∧ c ≠ '>' ∧ c ≠ '"' ∧ c ≠ '\''
  entity : ∀ rest, '&' :: rest <:+ piece.toList → ∃ e ∈ entities, e.1 <+: '&' :: rest
  replaced : unescapeMarkup piece = text

theorem escapeMarkup_shows (s : String) : Shows (escapeMarkup s) s where
  plain := by
    intro x hx
    rw [escapeMarkup, String.toList_ofList] at hx
    obtain ⟨c, _, member⟩ := List.mem_flatMap.1 hx
    exact escapeMarkupChar_safe c x member
  entity := by
    intro rest h
    rw [escapeMarkup, String.toList_ofList] at h
    exact ampersand_escaped h
  replaced := by
    rw [unescapeMarkup, escapeMarkup, String.toList_ofList, replaceEntities_escaped,
      String.ofList_toList]

end Stencil.Text
