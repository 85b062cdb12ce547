import Stencil.Text.Printable

/-! Texts as messages quote them: between single quotes, or between double quotes when the text
holds a single quote and no double quote. The quote in use, the backslash and everything that is
not printable are escaped. -/
namespace Stencil.Text

def hexDigit (n : Nat) : Char := if n < 10 then Char.ofNat (48 + n) else Char.ofNat (87 + n)

def hexDigits : Nat → Nat → List Char
  | 0, _ => []
  | width + 1, n => hexDigits width (n / 16) ++ [hexDigit (n % 16)]

def escapeCode (n : Nat) : List Char :=
  if n < 0x100 then '\\' :: 'x' :: hexDigits 2 n
  else if n < 0x10000 then '\\' :: 'u' :: hexDigits 4 n
  else '\\' :: 'U' :: hexDigits 8 n

def escapeChar (quote c : Char) : List Char :=
  if c = quote ∨ c = '\\' then ['\\', c]
  else if c = '\n' then ['\\', 'n']
  else if c = '\r' then ['\\', 'r']
  else if c = '\t' then ['\\', 't']
  else if isPrintable c then [c]
  else escapeCode c.toNat

def quoteOf (cs : List Char) : Char :=
  if cs.contains '\'' && !cs.contains '"' then '"' else '\''

def quotedChars (cs : List Char) : List Char :=
  quoteOf cs :: cs.flatMap (escapeChar (quoteOf cs)) ++ [quoteOf cs]

def quoted (s : String) : String := String.ofList (quotedChars s.toList)

def quotedUpTo (limit : Nat) (s : String) : String :=
  String.ofList ((quotedChars s.toList).take limit)

end Stencil.Text
