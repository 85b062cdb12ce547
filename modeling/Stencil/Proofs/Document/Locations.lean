import Mathlib
import Stencil.Proofs.Document.Faults

/-! The places that are told of a template, by both lexers and in faults, all fit its text. -/
namespace Stencil

theorem Segment.reached_of_mem {source : String} {segments : List Segment}
    (h : ofSource source = .ok segments) {s : Segment} (hs : s ∈ segments) :
    s.place.Reached source.toList := by
  obtain ⟨-, placed, whole⟩ := ofSource_eq_ok_iff.1 h
  obtain ⟨before, after, rfl⟩ := List.append_of_mem hs
  rw [← whole, contents_append, ((placed_append ..).1 placed).2.1]
  exact Location.reached_after _ _

namespace Document
open Outcome

theorem reached_of_parse_error {source : String} {reason : ParseFault.Reason} {place : Location}
    (h : parse source = .error (.at reason place)) : place.Reached source.toList := by
  have met := parse_blames source
  rw [h] at met
  cases met with
  | placed _ _ reached => exact reached

/-- Offset, line and column agree wherever a place is told: of each segment of a template, its end
included; of each token of a tag, of the end of its code, and of what its lexer rejects; and of a
fault of parsing, whichever it is. -/
theorem locations_fit (source : String) :
    (∀ segments, Segment.ofSource source = .ok segments →
      ∀ s ∈ segments, s.place.Fits source.toList) ∧
    (∀ parts stop, Part.ofSource source = .ok (parts, stop) →
      ∀ kind place code, .tag kind place code ∈ parts →
      (∀ tokens behind, Token.ofCode (Part.codePlace kind place) code = .ok (tokens, behind) →
        (∀ t ∈ tokens, t.place.Fits source.toList) ∧ behind.Fits source.toList) ∧
      ∀ reason place', Token.ofCode (Part.codePlace kind place) code = .error (.at reason place') →
        place'.Fits source.toList) ∧
    ∀ reason place, parse source = .error (.at reason place) → place.Fits source.toList := by
  refine ⟨fun segments h s hs => (Segment.reached_of_mem h hs).fits, ?_,
    fun reason place h => (reached_of_parse_error h).fits⟩
  intro parts stop cut kind place code hp
  have met := Part.code_reached cut hp
  constructor
  · intro tokens behind scanned
    rw [scanned] at met
    exact ⟨fun t ht => (met.1 t ht).fits, met.2.fits⟩
  · intro reason place' failed
    rw [failed] at met
    obtain ⟨_, _, same, reached⟩ := met
    obtain ⟨-, rfl⟩ := ParseFault.at.inj same
    exact reached.fits

/-- The name of a member is missing where the second tag ends, and that tag starts a line. -/
example : parse "<%= a %>\n<%= b. %>" = .error (.at (.memberExpected "") ⟨16, 2, 8⟩) := by cbv

end Document
end Stencil
