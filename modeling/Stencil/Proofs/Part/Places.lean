import Stencil.Proofs.Text.Location
import Stencil.Proofs.Token.Standing

/-! Every part of a template, and every token of a tag, stands at a place that a cursor reaches over
the text before it, though the code of each tag is read with a cursor of its own. -/
namespace Stencil
open Outcome
variable {source : String} {parts : List Part} {p : Part} {stop place : Location} {kind : TagKind}
    {code : String}
  {front cs rest text : List Char} {t : Token}

def ParseFault.At (P : Location → Prop) (fault : ParseFault) : Prop :=
  ∃ reason place, fault = .at reason place ∧ P place

namespace Token

theorem Cut.reached (h : Cut (Location.start.after front) cs t) (rest : List Char) :
    t.place.Reached (front ++ cs ++ rest) := by
  obtain ⟨before, c, behind, afterDot, l, rfl, -, rfl⟩ := h
  refine ⟨front ++ before, ⟨c :: behind ++ rest, by simp⟩, ?_⟩
  rw [Location.after_append]

theorem ofCode_cut (place : Location) (code : String) :
    Meets (fun found => (∀ t ∈ found.1, Cut place code.toList t) ∧
      found.2 = place.after code.toList)
      (fun fault => ∃ reason before, before <+: code.toList ∧
        fault = .at reason (place.after before))
      (ofCode place code) := scan_cut false place code.toList

/-- The lexer of a code that stands in a template never leaves that template. -/
theorem ofCode_reached (h : text = front ++ code.toList ++ rest)
    (hplace : place = Location.start.after front) :
    Meets (fun found => (∀ t ∈ found.1, t.place.Reached text) ∧ found.2.Reached text)
      (ParseFault.At (·.Reached text)) (ofCode place code) := by
  subst h hplace
  refine (ofCode_cut _ code).imp (fun found met => ?_) fun fault met => ?_
  · obtain ⟨cut, ending⟩ := met
    refine ⟨fun t ht => (cut t ht).reached rest, ?_⟩
    rw [ending, ← Location.after_append]
    exact Location.reached_after _ rest
  · obtain ⟨reason, before, ⟨behind, heq⟩, rfl⟩ := met
    refine ⟨reason, _, rfl, front ++ before, ⟨behind ++ rest, ?_⟩, (Location.after_append ..).symm⟩
    rw [← heq]
    simp

end Token

namespace Part

theorem ofSource_eq_ok_iff : ofSource source = .ok (parts, stop) ↔
    Row parts ∧ Placed .start parts ∧ sources parts = source.toList ∧
    stop = Location.start.after source.toList := by
  simp only [ofSource, map_eq_ok_iff, Prod.mk.injEq, scan_eq_ok_iff]
  constructor
  · intro found
    obtain ⟨_, ⟨row, placed, whole⟩, rfl, rfl⟩ := found
    exact ⟨row, placed, whole, rfl⟩
  · intro given
    obtain ⟨row, placed, whole, rfl⟩ := given
    exact ⟨parts, ⟨row, placed, whole⟩, rfl, rfl⟩

/-- The text in front of a part and behind it. -/
theorem exists_around (h : ofSource source = .ok (parts, stop)) (hp : p ∈ parts) :
    ∃ front rest, source.toList = front ++ p.source ++ rest ∧
    p.place = Location.start.after front := by
  obtain ⟨-, placed, whole, -⟩ := ofSource_eq_ok_iff.1 h
  obtain ⟨before, after, rfl⟩ := List.append_of_mem hp
  refine ⟨sources before, sources after, ?_, ((placed_append ..).1 placed).2.1⟩
  rw [← whole, sources_append, sources_cons, List.append_assoc]

theorem exists_around_code (h : ofSource source = .ok (parts, stop))
    (hp : .tag kind place code ∈ parts) :
    ∃ front rest, source.toList = front ++ code.toList ++ '%' :: rest ∧
      codePlace kind place = Location.start.after front := by
  obtain ⟨front, rest, whole, rfl⟩ := exists_around h hp
  refine ⟨front ++ kind.opener, '>' :: rest, ?_, (Location.after_append ..).symm⟩
  rw [whole]
  simp [Part.source, closer]

theorem ofSource_reached (source : String) :
    Meets (fun found => (∀ p ∈ found.1, p.place.Reached source.toList) ∧
      found.2.Reached source.toList)
      (ParseFault.At (·.Reached source.toList)) (ofSource source) := by
  cases found : ofSource source with
  | ok outcome =>
    obtain ⟨parts, stop⟩ := outcome
    refine ⟨fun p hp => ?_, ?_⟩
    · obtain ⟨front, rest, whole, hplace⟩ := exists_around found hp
      rw [hplace, whole, List.append_assoc]
      exact Location.reached_after _ _
    · obtain ⟨-, -, -, rfl⟩ := ofSource_eq_ok_iff.1 found
      exact ⟨_, List.prefix_rfl, rfl⟩
  | error fault =>
    rw [ofSource, map_eq_error_iff, scan_eq_error_iff] at found
    obtain ⟨parts, kind, behind, -, -, -, -, whole, rfl⟩ := found
    rw [whole]
    exact ⟨_, _, rfl, Location.reached_after _ _⟩

/-- The lexer of a tag tells places of the template only. -/
theorem code_reached (h : ofSource source = .ok (parts, stop)) (hp : .tag kind place code ∈ parts) :
    Meets (fun found => (∀ t ∈ found.1, t.place.Reached source.toList) ∧
      found.2.Reached source.toList)
      (ParseFault.At (·.Reached source.toList)) (Token.ofCode (codePlace kind place) code) := by
  obtain ⟨front, rest, whole, hplace⟩ := exists_around_code h hp
  exact Token.ofCode_reached whole hplace

/-- The tokens of a tag stand in the template, between the delimiters. -/
theorem stands_of_ofCode {tokens : List Token}
    (whole : text = front ++ (tag kind place code).source ++ rest)
    (hplace : place = Location.start.after front)
    (scanned : Token.ofCode (codePlace kind place) code = .ok (tokens, stop)) :
    ∀ t ∈ tokens, t.Stands text front.length (front ++ (tag kind place code).source).length := by
  have met := Token.ofCode_cut (codePlace kind place) code
  rw [scanned] at met
  subst hplace
  intro t ht
  have cut := met.1 t ht
  rw [codePlace, ← Location.after_append] at cut
  have around : text = front ++ kind.opener ++ code.toList ++ '%' :: '>' :: rest := by
    rw [whole]
    simp [Part.source, closer]
  rw [around]
  refine (cut.stands ('>' :: rest)).mono ?_ ?_
  · simp
  · simp only [Part.source, List.length_append]
    omega

end Part
end Stencil
