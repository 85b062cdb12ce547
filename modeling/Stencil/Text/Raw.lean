import Stencil.Text.Quoted

/-! Texts as an environment holds them: rows of code points. Where its bytes are no UTF-8 there are
surrogates, which have no bytes of their own. -/
namespace Stencil

abbrev CodePoint := Fin 0x110000

namespace CodePoint

def ofChar (c : Char) : CodePoint := Fin.ofNat _ c.toNat

def isSurrogate (c : CodePoint) : Bool := 0xD800 ≤ c.val && c.val < 0xE000

def char? (c : CodePoint) : Option Char := if c.isSurrogate then none else some (Char.ofNat c.val)

end CodePoint

/-- The first surrogates of a text, with the number of code points before them. -/
structure EncodingFault where
  position : Nat
  run : List CodePoint
  deriving DecidableEq, Repr

def EncodingFault.message (f : EncodingFault) : String :=
  let place :=
    match f.run with
    | [c] => s!"character '{String.ofList (Text.escapeCode c.val)}' in position {f.position}"
    | run => s!"characters in position {f.position}-{f.position + run.length - 1}"
  s!"'utf-8' codec can't encode {place}: surrogates not allowed"

structure RawText where
  points : List CodePoint
  deriving DecidableEq, Repr

namespace RawText

def ofString (s : String) : RawText := ⟨s.toList.map CodePoint.ofChar⟩

def text? (t : RawText) : Option String := (t.points.mapM CodePoint.char?).map String.ofList

def shown (t : RawText) : String := String.ofList (t.points.map fun c => c.char?.getD '\uFFFD')

def encodingFault (t : RawText) : EncodingFault :=
  let rest := t.points.dropWhile fun c => !c.isSurrogate
  ⟨t.points.length - rest.length, rest.takeWhile CodePoint.isSurrogate⟩

def utf8 (t : RawText) : Except EncodingFault (List UInt8) :=
  match t.text? with
  | some s => .ok s.toUTF8.data.toList
  | none => .error t.encodingFault

end RawText
end Stencil
