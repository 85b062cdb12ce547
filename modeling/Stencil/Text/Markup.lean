/-! Text made safe inside markup: the five characters with a meaning of their own become
entities. -/
namespace Stencil.Text

def escapeMarkupChar (c : Char) : List Char :=
  if c = '&' then ['&', 'a', 'm', 'p', ';']
  else if c = '<' then ['&', 'l', 't', ';']
  else if c = '>' then ['&', 'g', 't', ';']
  else if c = '"' then ['&', '#', '3', '4', ';']
  else if c = '\'' then ['&', '#', '3', '9', ';']
  else [c]

def escapeMarkup (s : String) : String := String.ofList (s.toList.flatMap escapeMarkupChar)

/-- No character with a meaning is left but the ampersand of an entity. -/
theorem escapeMarkupChar_safe (c x : Char) (h : x ∈ escapeMarkupChar c) :
    x ≠ '<' ∧ x ≠ '>' ∧ x ≠ '"' ∧ x ≠ '\'' := by
  have entities : ∀ e : List Char, (e.all fun y => y ≠ '<' ∧ y ≠ '>' ∧ y ≠ '"' ∧ y ≠ '\'') = true →
      x ∈ e → x ≠ '<' ∧ x ≠ '>' ∧ x ≠ '"' ∧ x ≠ '\'' := by
    intro e all member
    simpa using List.all_eq_true.1 all x member
  unfold escapeMarkupChar at h
  split at h
  · exact entities _ (by decide) h
  split at h
  · exact entities _ (by decide) h
  split at h
  · exact entities _ (by decide) h
  split at h
  · exact entities _ (by decide) h
  split at h
  · exact entities _ (by decide) h
  simp_all

end Stencil.Text
