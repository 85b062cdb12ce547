import Stencil.Cipher.Key
import Stencil.RenderFault

/-! Encrypted numbers. A token holds a version byte, the time, an initial block, the encrypted
number and an authentication code over all before, in base 64 without padding. -/
namespace Stencil

/-- What makes two tokens of one number differ. -/
structure TokenSeed where
  time : Nat
  vector : List UInt8
  deriving DecidableEq, Repr

namespace NumberToken

def version : UInt8 := 0x80

def payload (n : Int) : List UInt8 := bigEndian 8 (n % Int.pow 2 64).toNat

def ofPayload (bytes : List UInt8) : Int :=
  let n := ofBigEndian bytes
  if n < Nat.pow 2 63 then n else (n : Int) - Int.pow 2 64

def wrap (k : CipherKey) (seed : TokenSeed) (data : List UInt8) : List UInt8 :=
  let chain :=
    Aes.encryptChain k.encryption (CipherKey.blockOf seed.vector) (Aes.blocks (Aes.pad data))
  let body := version :: bigEndian 8 seed.time ++ seed.vector ++ chain.flatMap Aes.Block.bytes
  body ++ Sha256.authenticate k.signing body

def unwrap? (k : CipherKey) (bytes : List UInt8) : Option (List UInt8) :=
  let body := bytes.take (bytes.length - 32)
  let code := bytes.drop (bytes.length - 32)
  if bytes.head? = some version ∧ 9 ≤ bytes.length ∧ code = Sha256.authenticate k.signing body then
    let vector := (bytes.drop 9).take 16
    let secret := body.drop 25
    if secret.length % Aes.blockSize = 0 then
      let chain := Aes.decryptChain k.encryption (CipherKey.blockOf vector) (Aes.blocks secret)
      Aes.unpad? (chain.flatMap Aes.Block.bytes)
    else none
  else none

def encrypt (k : CipherKey) (seed : TokenSeed) (n : Int) : Except RenderFault String :=
  if Integer.fits n then
    .ok (String.ofList ((Base64.encode (wrap k seed (payload n))).filter (· != '=')))
  else .error (.tooWide .encryption n)

def padded (cs : List Char) : List Char := cs ++ List.replicate ((4 - cs.length % 4) % 4) '='

def decrypt (k : CipherKey) (token : String) : Except RenderFault Int :=
  if CipherKey.isAscii token.toList then
    match (Base64.decode? (padded token.toList)).bind (unwrap? k) with
    | none => .error (.undecryptable .tampered)
    | some data =>
      if data.length = 8 then .ok (ofPayload data)
      else .error (.undecryptable (.payloadSize data.length))
  else .error (.undecryptable .notAscii)

end NumberToken
end Stencil
