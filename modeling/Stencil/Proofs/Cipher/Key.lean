import Stencil.Proofs.Cipher.NumberToken
import Stencil.Proofs.Text.Raw
import Stencil.Settings

/-! The key in use. Main statement: there is one, unless it is to be derived from a secret that has
no bytes, and settings that come to the same bytes read each other's tokens. -/
namespace Stencil

namespace CipherKey
variable {s : String} {k : CipherKey} {bytes : List UInt8}

theorem ext {k k' : CipherKey} (h : k.bytes = k'.bytes) : k = k' := by
  cases k
  cases k'
  cases h
  rfl

/-- A text is a key exactly if it holds thirty-two bytes, which are those of the key. -/
theorem ofText_eq_ok_iff : ofText s = .ok k ↔ bytesOf? s.toList = some k.bytes := by
  unfold ofText bytesOf?
  constructor
  · intro made
    split at made
    · rename_i ascii
      rw [if_pos ascii]
      split at made
      · rename_i bytes decoded
        split at made
        · cases made
          exact decoded
        · cases made
      · cases made
    · cases made
  · intro held
    split at held
    · rename_i ascii
      rw [if_pos ascii, held]
      exact dif_pos k.length_eq
    · cases held

theorem bytesOf?_text (k : CipherKey) : bytesOf? k.text.toList = some k.bytes := by
  have plain : isAscii (Base64.encode k.bytes) = true := by
    obtain ⟨body, pads, written, letters, -⟩ := Base64.encode_eq k.bytes
    rw [written, isAscii, List.all_append, Bool.and_eq_true]
    constructor
    · exact List.all_eq_true.2 fun c hc => decide_eq_true (Base64.of_mem_letters (letters c hc)).2.2
    · exact List.all_eq_true.2 fun c hc => by
        rw [List.eq_of_mem_replicate hc]
        decide
  rw [text, String.toList_ofList, bytesOf?, if_pos plain, Base64.decode?_encode]

/-- What is written of a key is that key again. -/
theorem ofText_text (k : CipherKey) : ofText k.text = .ok k := ofText_eq_ok_iff.2 (bytesOf?_text k)

theorem bytesOf?_nil : bytesOf? [] = some [] := rfl

def heldBytes? (keyText : RawText) : Option (List UInt8) :=
  keyText.text?.bind fun s => bytesOf? (Text.trim s.toList)

/-- The configured text is taken if it is a key. -/
theorem configured_of_bytes {keyText : RawText} (secret : RawText)
    (held : heldBytes? keyText = some bytes) (size : bytes.length = 32) :
    ∃ s, configured keyText secret = .ok s ∧ bytesOf? s.toList = some bytes := by
  obtain ⟨s, plain, held⟩ := Option.bind_eq_some_iff.1 held
  have present : (Text.trim s.toList).isEmpty = false := by
    cases trimmed : Text.trim s.toList with
    | nil =>
      rw [trimmed, bytesOf?_nil] at held
      cases held
      cases size
    | cons c cs => rfl
  refine ⟨String.ofList (Text.trim s.toList), ?_, by rwa [String.toList_ofList]⟩
  unfold configured
  simp only [plain, present, held]
  exact if_pos size

/-- And if it is none, the secret decides. -/
theorem configured_of_no_bytes {keyText : RawText} (secret : RawText)
    (none : ∀ bytes, heldBytes? keyText = some bytes → bytes.length ≠ 32) :
    configured keyText secret = secretText secret := by
  unfold configured
  split
  · rfl
  · rename_i s plain
    dsimp only
    split
    · rfl
    · split
      · rename_i bytes held
        exact if_neg (none bytes (by rw [heldBytes?, plain, Option.bind_some, held]))
      · rfl

end CipherKey

namespace Settings
open CipherKey (heldBytes?)

/-- The bytes that settings come to: those that the configured text holds, if they are thirty-two,
and else the hash of the secret. -/
def keyBytes (s : Settings) : Except EncodingFault (List UInt8) :=
  match (heldBytes? s.encryptionKey).filter (·.length = 32) with
  | some bytes => .ok bytes
  | none => s.secretKey.utf8.map Sha256.hash

variable {s : Settings} {bytes : List UInt8}

theorem keyBytes_of_bytes (held : heldBytes? s.encryptionKey = some bytes)
    (size : bytes.length = 32) :
    s.keyBytes = .ok bytes := by
  rw [keyBytes, held, Option.filter_some, if_pos (decide_eq_true size)]

theorem keyBytes_of_no_bytes
    (none : ∀ bytes, heldBytes? s.encryptionKey = some bytes → bytes.length ≠ 32) :
    s.keyBytes = s.secretKey.utf8.map Sha256.hash := by
  have left : (heldBytes? s.encryptionKey).filter (·.length = 32) = Option.none := by
    rw [Option.filter_eq_none_iff]
    exact fun bytes held => by simpa using none bytes held
  rw [keyBytes, left]

/-- What is chosen by its length is read again as a key, and so is what is derived. -/
theorem exists_key (made : s.keyBytes = .ok bytes) : ∃ k, s.key "" = .ok k ∧ k.bytes = bytes := by
  by_cases given : ∃ bytes, heldBytes? s.encryptionKey = some bytes ∧ bytes.length = 32
  · obtain ⟨bytes', held, size⟩ := given
    obtain rfl := Except.ok.inj ((keyBytes_of_bytes held size).symm.trans made)
    obtain ⟨text, chosen, inside⟩ := CipherKey.configured_of_bytes s.secretKey held size
    refine ⟨⟨bytes', size⟩, ?_, rfl⟩
    rw [key, if_pos rfl, keyText, chosen]
    exact CipherKey.ofText_eq_ok_iff.2 inside
  · have none : ∀ bytes, heldBytes? s.encryptionKey = some bytes → bytes.length ≠ 32 :=
      fun bytes held size => given ⟨bytes, held, size⟩
    rw [keyBytes_of_no_bytes none] at made
    cases encoded : s.secretKey.utf8 with
    | error fault =>
      rw [encoded] at made
      cases made
    | ok secret =>
      rw [encoded] at made
      cases made
      refine ⟨CipherKey.derived secret, ?_, rfl⟩
      rw [key, if_pos rfl, keyText, CipherKey.configured_of_no_bytes s.secretKey none,
        CipherKey.secretText, encoded]
      exact CipherKey.ofText_text _

theorem key_of_fault {fault : EncodingFault} (failed : s.keyBytes = .error fault) :
    s.key "" = .error (.unencodable fault) := by
  have none : ∀ bytes, heldBytes? s.encryptionKey = some bytes → bytes.length ≠ 32 := by
    intro bytes held size
    rw [keyBytes_of_bytes held size] at failed
    cases failed
  rw [keyBytes_of_no_bytes none] at failed
  cases encoded : s.secretKey.utf8 with
  | ok secret =>
    rw [encoded] at failed
    cases failed
  | error found =>
    rw [encoded] at failed
    cases failed
    rw [key, if_pos rfl, keyText, CipherKey.configured_of_no_bytes s.secretKey none,
      CipherKey.secretText, encoded]
    rfl

/-- Settings give a key, without anything given beside them: the bytes that the configured text
holds, blanks at its ends dropped, if there are thirty-two of them, and the hash of the secret
otherwise. The one thing in the way is a surrogate in a secret that is to be hashed. Of two settings
that come to the same bytes, each reads the tokens of the other. -/
theorem key_outcomes (s : Settings) :
    (∀ bytes, heldBytes? s.encryptionKey = some bytes → bytes.length = 32 →
      ∃ k, s.key "" = .ok k ∧ k.bytes = bytes) ∧
    ((¬∃ bytes, heldBytes? s.encryptionKey = some bytes ∧ bytes.length = 32) →
      (∀ secret, s.secretKey = .ofString secret →
        ∃ k, s.key "" = .ok k ∧ k.bytes = Sha256.hash secret.toUTF8.data.toList) ∧
      ∀ before run after, RawText.Parted s.secretKey.points before run after →
        s.key "" = .error (.unencodable ⟨before.length, run⟩)) ∧
    ((¬∃ secret, s.secretKey = .ofString secret) ↔
      ∃ before run after, RawText.Parted s.secretKey.points before run after) ∧
    ∀ k, s.key "" = .ok k → ∀ s' : Settings, s'.keyBytes = s.keyBytes → ∃ k', s'.key "" = .ok k' ∧
      ∀ (seed : TokenSeed) (n : Int), seed.vector.length = 16 → -2 ^ 63 ≤ n ∧ n < 2 ^ 63 →
        ∃ token, NumberToken.encrypt k seed n = .ok token ∧
        NumberToken.decrypt k' token = .ok n := by
  refine ⟨fun bytes held size => exists_key (keyBytes_of_bytes held size), fun no => ⟨?_, ?_⟩,
    RawText.not_exists_ofString_iff, ?_⟩
  · intro secret text
    refine exists_key ?_
    rw [keyBytes_of_no_bytes fun bytes held size => no ⟨bytes, held, size⟩, text,
      RawText.utf8_ofString]
    rfl
  · intro before run after parted
    refine key_of_fault ?_
    rw [keyBytes_of_no_bytes fun bytes held size => no ⟨bytes, held, size⟩, parted.utf8]
    rfl
  · intro k made s' alike
    cases found : s.keyBytes with
    | error fault =>
      rw [key_of_fault found] at made
      cases made
    | ok bytes =>
      obtain ⟨k, made', hk⟩ := exists_key found
      obtain rfl := Except.ok.inj (made'.symm.trans made)
      obtain ⟨k', made', hk'⟩ := exists_key (alike.trans found)
      obtain rfl : k = k' := CipherKey.ext (hk.trans hk'.symm)
      refine ⟨k, made', fun seed n vector range => ?_⟩
      have fits : Integer.fits n = true := Integer.fits_iff_range.2 range
      exact ⟨NumberToken.text k seed n, NumberToken.encrypt_of_fits fits,
        NumberToken.decrypt_text vector fits⟩

/-- A secret in another encoding gives no key: its last byte stands as a surrogate. -/
theorem key_of_surrogate :
    ∃ s : Settings, s.encryptionKey = .ofString "" ∧ s.secretKey = ⟨[0x63, 0x61, 0x66, 0xDCE9]⟩ ∧
      s.key "" = .error (.unencodable ⟨3, [0xDCE9]⟩) ∧
      KeyFault.message (.unencodable ⟨3, [0xDCE9]⟩) =
        "'utf-8' codec can't encode character '\\udce9' in position 3: surrogates not allowed" := by
  refine ⟨{ defaults with
    encryptionKey := .ofString "", secretKey := ⟨[0x63, 0x61, 0x66, 0xDCE9]⟩ }, rfl, rfl, ?_, ?_⟩
  · exact key_of_fault rfl
  · decide

end Settings
end Stencil
