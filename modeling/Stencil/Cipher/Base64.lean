/-! Base 64 with the alphabet for addresses: written with padding, read leniently. A reader skips
what is no letter of the alphabet, takes `+` and `/` for `-` and `_`, and stops where padding is
complete. -/
namespace Stencil.Base64

def letters : List Char := "ABCDEFGHIJKLMNOPQRSTUVWXYZabcdefghijklmnopqrstuvwxyz0123456789-_".toList

def letter (n : Nat) : Char := letters.getD n 'A'

def value? (c : Char) : Option Nat :=
  if c = '+' then some 62 else if c = '/' then some 63 else letters.idxOf? c

def encode : List UInt8 → List Char
  | [] => []
  | [a] => [letter (a.toNat / 4), letter (a.toNat % 4 * 16), '=', '=']
  | [a, b] =>
    [letter (a.toNat / 4), letter (a.toNat % 4 * 16 + b.toNat / 16), letter (b.toNat % 16 * 4), '=']
  | a :: b :: c :: rest =>
    letter (a.toNat / 4) :: letter (a.toNat % 4 * 16 + b.toNat / 16) ::
      letter (b.toNat % 16 * 4 + c.toNat / 64) :: letter (c.toNat % 64) :: encode rest

/-- `quad` letters of the current group of four have been read, `left` holds their bits that are not
written yet, and `pads` padding characters came right before. -/
def decodeFrom (quad left pads : Nat) : List Char → Option (List UInt8)
  | [] => if quad = 0 then some [] else none
  | c :: rest =>
    if c = '=' then
      if quad < 2 then decodeFrom quad left pads rest
      else if 4 ≤ quad + pads + 1 then some []
      else decodeFrom quad left (pads + 1) rest
    else
      match value? c with
      | none => decodeFrom quad left pads rest
      | some v =>
        match quad with
        | 0 => decodeFrom 1 v 0 rest
        | 1 => (decodeFrom 2 (v % 16) 0 rest).map (UInt8.ofNat (left * 4 + v / 16) :: ·)
        | 2 => (decodeFrom 3 (v % 4) 0 rest).map (UInt8.ofNat (left * 16 + v / 4) :: ·)
        | _ => (decodeFrom 0 0 0 rest).map (UInt8.ofNat (left * 64 + v) :: ·)

def decode? (cs : List Char) : Option (List UInt8) := decodeFrom 0 0 0 cs

example : encode [255, 254, 65] = "__5B".toList ∧ decode? "_-5*B".toList = some [255, 238, 65] := by
  decide +kernel

end Stencil.Base64
