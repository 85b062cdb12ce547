import Stencil.Text.Quoted

/-! Universally unique identifiers. -/
namespace Stencil

structure Uuid where
  number : Nat
  deriving DecidableEq, Repr

namespace Uuid

def hexValue? (c : Char) : Option Nat :=
  if c.isDigit then some (c.toNat - 48)
  else if 'a' ≤ c.toLower && c.toLower ≤ 'f' then some (c.toLower.toNat - 87)
  else none

def ofText? (s : String) : Option Uuid :=
  let bare := ((s.replace "urn:" "").replace "uuid:" "").toList
  let digits := bare.filter fun c => !(['-', Char.ofNat 123, Char.ofNat 125].contains c)
  if digits.length = 32 then
    (digits.mapM hexValue?).map fun ds => ⟨ds.foldl (fun n d => 16 * n + d) 0⟩
  else none

def text (u : Uuid) : String :=
  let digits := Text.hexDigits 32 u.number
  let group (start width : Nat) := String.ofList ((digits.drop start).take width)
  "-".intercalate [group 0 8, group 8 4, group 12 4, group 16 4, group 20 12]

end Uuid
end Stencil
