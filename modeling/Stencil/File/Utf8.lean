/-! Reading bytes as text in UTF-8. The first octet that does not fit decides what is wrong. -/
namespace Stencil.Utf8

inductive Fault where
  | start
  | continuation
  | unfinished
  deriving DecidableEq, Repr

def Fault.text : Fault → String
  | start => "invalid start byte"
  | continuation => "invalid continuation byte"
  | unfinished => "unexpected end of data"

def lead? (b : Nat) : Option (Nat × Nat × Nat × Nat) :=
  if b < 0x80 then some (0, 0x80, 0xbf, b)
  else if b < 0xc2 then none
  else if b < 0xe0 then some (1, 0x80, 0xbf, b - 0xc0)
  else if b = 0xe0 then some (2, 0xa0, 0xbf, 0)
  else if b = 0xed then some (2, 0x80, 0x9f, 0xd)
  else if b < 0xf0 then some (2, 0x80, 0xbf, b - 0xe0)
  else if b = 0xf0 then some (3, 0x90, 0xbf, 0)
  else if b = 0xf4 then some (3, 0x80, 0x8f, 4)
  else if b < 0xf4 then some (3, 0x80, 0xbf, b - 0xf0)
  else none

/-- `pending` octets are still to come for the character with the bits `code`; the next one must lie
between `low` and `high`. -/
def decodeFrom (pending low high code : Nat) : List UInt8 → Except Fault (List Char)
  | [] => if pending = 0 then .ok [] else .error .unfinished
  | b :: rest =>
    if pending = 0 then
      match lead? b.toNat with
      | none => .error .start
      | some (0, _, _, bits) => (decodeFrom 0 0x80 0xbf 0 rest).map (Char.ofNat bits :: ·)
      | some (more, low', high', bits) => decodeFrom more low' high' bits rest
    else if low ≤ b.toNat ∧ b.toNat ≤ high then
      let code' := 64 * code + (b.toNat - 0x80)
      if pending = 1 then (decodeFrom 0 0x80 0xbf 0 rest).map (Char.ofNat code' :: ·)
      else decodeFrom (pending - 1) 0x80 0xbf code' rest
    else .error .continuation

def decode (bytes : List UInt8) : Except Fault (List Char) := decodeFrom 0 0x80 0xbf 0 bytes

end Stencil.Utf8
