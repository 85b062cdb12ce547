import Stencil.Proofs.Outcome
import Stencil.Token.Lexer

/-! Tokens and faults up to the places they carry. Where a code stands decides the places only. -/
namespace Stencil
open Outcome

def ParseFault.unplaced : ParseFault → ParseFault
  | .at reason _ => .at reason .start
  | .numeral fault => .numeral fault

namespace Token

def bare (kind : Kind) (text : String) : Token := ⟨kind, text, .start, 0⟩

def unplaced (t : Token) : Token := bare t.kind t.text

@[simp] theorem unplaced_kind (t : Token) : t.unplaced.kind = t.kind := rfl

@[simp] theorem unplaced_text (t : Token) : t.unplaced.text = t.text := rfl

@[simp] theorem unplaced_place (t : Token) : t.unplaced.place = .start := rfl

@[simp] theorem bare_kind (kind : Kind) (text : String) : (bare kind text).kind = kind := rfl

@[simp] theorem bare_text (kind : Kind) (text : String) : (bare kind text).text = text := rfl

@[simp] theorem bare_place (kind : Kind) (text : String) : (bare kind text).place = .start := rfl

@[simp] theorem unplaced_bare (kind : Kind) (text : String) :
    (bare kind text).unplaced = bare kind text := rfl

def Seen (r : Except ParseFault (List Token × Location)) : Except ParseFault (List Token) :=
  bimap ParseFault.unplaced (fun (tokens, _) => tokens.map unplaced) r

theorem scan_unplaced (afterDot : Bool) (place place' : Location) (cs : List Char) :
    Seen (scan afterDot place cs) = Seen (scan afterDot place' cs) := by
  fun_induction scan afterDot place cs generalizing place' with
  | case1 => simp [scan, Seen]
  | case2 afterDot place c rest space ih => rw [scan, if_pos space, ih]
  | case3 afterDot place c rest space reason heq =>
    rw [scan, if_neg space, heq]
    rfl
  | case4 afterDot place c rest space l heq fault hfault ih =>
    rw [hfault] at ih
    rw [scan, if_neg space, heq]
    have same := ih (place'.after ((c :: rest).take l.width))
    cases hscan : scan (l.kind == .dot) (place'.after ((c :: rest).take l.width))
      (rest.drop (l.width - 1)) with
    | ok found => rw [hscan] at same; cases same
    | error fault' => simpa [hscan, Seen] using same
  | case5 afterDot place c rest space l heq tokens stop hok ih =>
    rw [hok] at ih
    rw [scan, if_neg space, heq]
    have same := ih (place'.after ((c :: rest).take l.width))
    cases hscan : scan (l.kind == .dot) (place'.after ((c :: rest).take l.width))
      (rest.drop (l.width - 1)) with
    | ok found => simpa [hscan, Seen, unplaced] using same
    | error fault => rw [hscan] at same; cases same

def scanned (afterDot : Bool) (cs : List Char) : Except ParseFault (List Token) :=
  Seen (scan afterDot .start cs)

theorem seen_scan (afterDot : Bool) (place : Location) (cs : List Char) :
    Seen (scan afterDot place cs) = scanned afterDot cs := scan_unplaced ..

@[simp] theorem scanned_nil (afterDot : Bool) :
    scanned afterDot [] = .ok [] := by simp [scanned, scan, Seen]

@[simp] theorem scanned_space (afterDot : Bool) (rest : List Char) :
    scanned afterDot (' ' :: rest) = scanned afterDot rest := by
  rw [scanned, scan, if_pos (by decide), seen_scan]

theorem scanned_eq_ok {afterDot : Bool} (place : Location) {cs : List Char} {tokens : List Token}
    (h : scanned afterDot cs = .ok tokens) :
    ∃ found stop, scan afterDot place cs = .ok (found, stop) ∧ found.map unplaced = tokens := by
  rw [← seen_scan afterDot place] at h
  cases hscan : scan afterDot place cs with
  | ok r => rw [hscan] at h; exact ⟨r.1, r.2, rfl, Except.ok.inj h⟩
  | error fault => rw [hscan] at h; cases h

end Token
end Stencil
