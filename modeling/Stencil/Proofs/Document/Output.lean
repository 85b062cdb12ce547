import Stencil.Document.Parser
import Stencil.Proofs.Expr.Unplaced
import Stencil.Proofs.Part.Scan

/-! Templates that are one output tag. -/
namespace Stencil
open Outcome

namespace Expr

def ofCode (place : Location) (code : List Char) : Except ParseFault Expr := do
  let (tokens, stop) ← Token.scan false place code
  ofTokens stop tokens

def seen (code : List Char) : Except ParseFault Expr := Token.scanned false code >>= ofTokens .start

theorem bimap_ofCode (place : Location) (code : List Char) :
    bimap ParseFault.unplaced unplaced (ofCode place code) = seen code := by
  rw [seen, ← Token.seen_scan false place]
  exact bimap_bind rfl fun (tokens, stop) => ofTokens_unplaced stop tokens

theorem exists_of_seen_ok {code : List Char} {e : Expr} (h : seen code = .ok e) (place : Location) :
    ∃ e', ofCode place code = .ok e' ∧ e'.unplaced = e := by
  rw [← bimap_ofCode place] at h
  cases hc : ofCode place code with
  | ok e' => rw [hc] at h; exact ⟨e', rfl, Except.ok.inj h⟩
  | error fault => rw [hc] at h; cases h

theorem exists_of_seen_error {code : List Char} {fault : ParseFault} (h : seen code = .error fault)
    (place : Location) :
    ∃ fault', ofCode place code = .error fault' ∧ fault'.unplaced = fault := by
  rw [← bimap_ofCode place] at h
  cases hc : ofCode place code with
  | ok e => rw [hc] at h; cases h
  | error fault' => rw [hc] at h; exact ⟨fault', rfl, Except.error.inj h⟩

end Expr

namespace Document

/-- A template with one output tag is as good as the code of the tag. -/
theorem parse_output {code : List Char} (closed : Quotes.Closed .outside code) :
    parse (String.ofList (TagKind.escaped.opener ++ code ++ Part.closer)) =
      (Expr.ofCode (Part.codePlace .escaped .start) code).map fun e => ⟨[.output 0 e true]⟩ := by
  have row : Part.Row [.tag .escaped .start (String.ofList code)] :=
    ⟨⟨nofun, by simpa using closed⟩, trivial⟩
  have cut : Part.scan .start (TagKind.escaped.opener ++ code ++ Part.closer) =
      .ok [.tag .escaped .start (String.ofList code)] :=
    Part.scan_eq_ok_iff.2 ⟨row, ⟨rfl, trivial⟩, by simp [Part.source]⟩
  rw [parse, Part.ofSource, String.toList_ofList, cut]
  simp only [map_ok, ofPartsCounted, Draft.part, Token.ofCode, String.toList_ofList, Expr.ofCode]
  cases Token.scan false (Part.codePlace .escaped .start) code with
  | error fault => rfl
  | ok found =>
    obtain ⟨tokens, stop⟩ := found
    cases h : Expr.ofTokens stop tokens with
    | error fault => simp [h]
    | ok e => simp [h, Draft.add, Draft.empty, Draft.finish, Location.start]

theorem output_source (text : String) : "<%= " ++ text ++ " %>" =
    String.ofList (TagKind.escaped.opener ++ ' ' :: (text.toList ++ [' ']) ++ Part.closer) := by
  rw [← String.toList_inj]
  simp [TagKind.opener, Part.closer]

end Document
end Stencil
