import Stencil.Cipher.Aes
import Stencil.Cipher.Base64
import Stencil.Cipher.Sha256
import Stencil.Text.Blank
import Stencil.Text.Raw

/-! Keys of thirty-two bytes: read from base 64, or derived from any secret by hashing it. -/
namespace Stencil

/-- The first half of the bytes signs, the second half encrypts. -/
structure CipherKey where
  bytes : List UInt8
  length_eq : bytes.length = 32

inductive KeyFault where
  | notAscii
  | malformed
  | unencodable (fault : EncodingFault)
  deriving DecidableEq, Repr

def KeyFault.message : KeyFault → String
  | notAscii => "string argument should contain only ASCII characters"
  | malformed => "Fernet key must be 32 url-safe base64-encoded bytes."
  | unencodable fault => fault.message

namespace CipherKey

def signing (k : CipherKey) : List UInt8 := k.bytes.take 16

def blockOf (bytes : List UInt8) : Aes.Block :=
  (Aes.blocks bytes).headD ⟨⟨0, 0, 0, 0⟩, ⟨0, 0, 0, 0⟩, ⟨0, 0, 0, 0⟩, ⟨0, 0, 0, 0⟩⟩

def encryption (k : CipherKey) : Aes.Block := blockOf (k.bytes.drop 16)

def isAscii (cs : List Char) : Bool := cs.all fun c => c.toNat < 128

def ofText (s : String) : Except KeyFault CipherKey :=
  if isAscii s.toList then
    match Base64.decode? s.toList with
    | some bytes => if h : bytes.length = 32 then .ok ⟨bytes, h⟩ else .error .malformed
    | none => .error .malformed
  else .error .notAscii

def derived (secret : List UInt8) : CipherKey := ⟨Sha256.hash secret, Sha256.length_hash _⟩

def text (k : CipherKey) : String := String.ofList (Base64.encode k.bytes)

def bytesOf? (cs : List Char) : Option (List UInt8) :=
  if isAscii cs then Base64.decode? cs else none

def secretText (secret : RawText) : Except KeyFault String :=
  match secret.utf8 with
  | .ok bytes => .ok (derived bytes).text
  | .error fault => .error (.unencodable fault)

/-- The configured text without the blanks at its ends, if there is any and it holds thirty-two
bytes; else the text of the derived key. A surrogate is no character of base 64. -/
def configured (keyText secret : RawText) : Except KeyFault String :=
  match keyText.text? with
  | none => secretText secret
  | some s =>
    let trimmed := Text.trim s.toList
    if trimmed.isEmpty then secretText secret
    else
      match bytesOf? trimmed with
      | some bytes => if bytes.length = 32 then .ok (String.ofList trimmed) else secretText secret
      | none => secretText secret

end CipherKey

end Stencil
