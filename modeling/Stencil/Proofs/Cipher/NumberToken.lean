import Stencil.Document.Render
import Stencil.Proofs.Cipher.Base64
import Stencil.Proofs.Cipher.Chain
import Stencil.Proofs.Cipher.Payload
import Stencil.Proofs.Number.Extent
import Stencil.Proofs.Outcome

/-! Tokens: every number of 64 bits comes back out of its token, and what is read as a number are
the bytes of a token. The text around these bytes is read leniently, so that a token is not the only
text of its bytes. -/
namespace Stencil

structure TokenSeed.Valid (seed : TokenSeed) : Prop where
  time : seed.time < 256 ^ 8
  vector : seed.vector.length = 16

namespace NumberToken
variable {k : CipherKey} {seed : TokenSeed} {bytes data secret covered : List UInt8} {n : Int}

section Bytes

def body (seed : TokenSeed) (secret : List UInt8) : List UInt8 :=
  version :: bigEndian 8 seed.time ++ seed.vector ++ secret

def secretOf (k : CipherKey) (seed : TokenSeed) (data : List UInt8) : List UInt8 :=
  (Aes.encryptChain k.encryption (CipherKey.blockOf seed.vector)
    (Aes.blocks (Aes.pad data))).flatMap
    Aes.Block.bytes

theorem wrap_eq (k : CipherKey) (seed : TokenSeed) (data : List UInt8) :
    wrap k seed data = body seed (secretOf k seed data) ++
      Sha256.authenticate k.signing (body seed (secretOf k seed data)) := rfl

theorem length_head (time : Nat) : (version :: bigEndian 8 time).length = 9 := by
  rw [List.length_cons, length_bigEndian]

theorem drop_body (vector : seed.vector.length = 16) : (body seed secret).drop 25 = secret :=
  List.drop_left' (by rw [List.length_append, length_head, vector])

theorem unwrap?_body (vector : seed.vector.length = 16) (whole : secret.length % 16 = 0) :
    unwrap? k (body seed secret ++ Sha256.authenticate k.signing (body seed secret)) =
      Aes.unpad?
        ((Aes.decryptChain k.encryption (CipherKey.blockOf seed.vector) (Aes.blocks secret)).flatMap
        Aes.Block.bytes) := by
  generalize authentic : Sha256.authenticate k.signing (body seed secret) = code
  have short : code.length = 32 := authentic ▸ Sha256.length_authenticate _ _
  have size : (body seed secret ++ code).length - 32 = (body seed secret).length := by
    rw [List.length_append, short, Nat.add_sub_cancel]
  have block : ((body seed secret ++ code).drop 9).take 16 = seed.vector := by
    rw [body, List.append_assoc, List.append_assoc, List.drop_left' (length_head _),
      List.take_left' vector]
  have long : 9 ≤ (body seed secret ++ code).length := by
    rw [body, List.append_assoc, List.append_assoc, List.length_append, length_head]
    exact Nat.le_add_right _ _
  unfold unwrap?
  rw [size, List.take_left, List.drop_left, if_pos ⟨rfl, long, authentic.symm⟩, block,
    drop_body vector, Aes.blockSize, if_pos whole]

/-- A token is opened to the data that was put into it. -/
theorem unwrap?_wrap (vector : seed.vector.length = 16) (data : List UInt8) :
    unwrap? k (wrap k seed data) = some data := by
  have filled := Aes.length_pad data
  have whole : (secretOf k seed data).length % 16 = 0 := by
    rw [secretOf, Aes.length_flatMap, Nat.mul_mod_right]
  rw [wrap_eq, unwrap?_body vector whole, secretOf, Aes.blocks_flatMap,
    Aes.decryptChain_encryptChain, Aes.flatMap_blocks (by omega), Aes.unpad?_pad]

/-- Whatever begins with the version byte and is long enough has the parts of a token. -/
theorem exists_body (first : covered.head? = some version) (long : 25 ≤ covered.length) :
    ∃ (seed : TokenSeed) (secret : List UInt8), seed.Valid ∧ covered = body seed secret := by
  obtain ⟨rest, rfl⟩ := List.head?_eq_some_iff.1 first
  rw [List.length_cons] at long
  have eight : (rest.take 8).length = 8 := by rw [List.length_take]; omega
  have time := bigEndian_ofBigEndian (rest.take 8)
  have bound := ofBigEndian_lt (rest.take 8)
  rw [eight] at time bound
  have block : ((rest.drop 8).take 16).length = 16 := by
    rw [List.length_take, List.length_drop]
    omega
  have parts : rest = rest.take 8 ++ ((rest.drop 8).take 16 ++ rest.drop 24) := by
    conv => lhs; rw [← List.take_append_drop 8 rest, ← List.take_append_drop 16 (rest.drop 8),
      List.drop_drop]
  refine ⟨⟨ofBigEndian (rest.take 8), (rest.drop 8).take 16⟩, rest.drop 24, ⟨bound, block⟩, ?_⟩
  rw [body, time, List.append_assoc, List.cons_append, ← parts]

/-- What is opened is a body with its own code behind it. -/
theorem body_of_unwrap? (h : unwrap? k bytes = some data) :
    ∃ (seed : TokenSeed) (secret : List UInt8), seed.Valid ∧ secret.length % 16 = 0 ∧
      bytes = body seed secret ++ Sha256.authenticate k.signing (body seed secret) := by
  unfold unwrap? at h
  dsimp only at h
  split at h
  · rename_i opened
    obtain ⟨first, -, code⟩ := opened
    split at h
    · rename_i whole
      have parted := (List.take_append_drop (bytes.length - 32) bytes).symm
      rw [code] at parted
      generalize bytes.take (bytes.length - 32) = covered at h whole parted
      -- without a secret there would be no padding to take off
      have long : 25 < covered.length := by
        by_contra short
        have nothing : covered.drop 25 = [] := List.drop_eq_nil_of_le (by omega)
        rw [nothing] at h
        cases h
      rw [parted, List.head?_append_of_ne_nil _ (List.ne_nil_of_length_pos (by omega))] at first
      obtain ⟨seed, secret, valid, rfl⟩ := exists_body first long.le
      rw [drop_body valid.vector] at whole
      exact ⟨seed, secret, valid, whole, parted⟩
    · cases h
  · cases h

/-- Only what was wrapped is opened. -/
theorem wrap_of_unwrap? (h : unwrap? k bytes = some data) :
    ∃ seed : TokenSeed, seed.Valid ∧ bytes = wrap k seed data := by
  obtain ⟨seed, secret, valid, whole, rfl⟩ := body_of_unwrap? h
  rw [unwrap?_body valid.vector whole] at h
  have filled := Aes.pad_of_unpad? (by rw [Aes.length_flatMap, Nat.mul_mod_right]) h
  have same : secretOf k seed data = secret := by
    rw [secretOf, filled, Aes.blocks_flatMap, Aes.encryptChain_decryptChain,
      Aes.flatMap_blocks whole]
  exact ⟨seed, valid, by rw [wrap_eq, same]⟩

end Bytes

section Text

def text (k : CipherKey) (seed : TokenSeed) (n : Int) : String :=
  String.ofList (Base64.unpadded (wrap k seed (payload n)))

theorem encrypt_of_fits (h : Integer.fits n = true) : encrypt k seed n = .ok (text k seed n) :=
  if_pos h

theorem encrypt_eq_ok_iff {token : String} :
    encrypt k seed n = .ok token ↔ Integer.fits n = true ∧ token = text k seed n := by
  by_cases h : Integer.fits n = true
  · rw [encrypt_of_fits h]
    exact ⟨fun made => ⟨h, (Except.ok.inj made).symm⟩, fun made => congrArg Except.ok made.2.symm⟩
  · rw [encrypt, if_neg h]
    constructor
    · intro made
      cases made
    · exact fun made => absurd made.1 h

theorem plain_text {c : Char} (h : c ∈ (text k seed n).toList) :
    (c.isAlphanum ∨ c = '-' ∨ c = '_') ∧ c ≠ '=' ∧ c.toNat < 128 := by
  rw [text, String.toList_ofList] at h
  exact Base64.of_mem_letters (Base64.mem_letters_of_unpadded h)

theorem isAscii_text : CipherKey.isAscii (text k seed n).toList = true :=
  List.all_eq_true.2 fun _ hc => decide_eq_true (plain_text hc).2.2

theorem decode?_text :
    Base64.decode? (padded (text k seed n).toList) = some (wrap k seed (payload n)) := by
  rw [text, String.toList_ofList, Base64.padded_unpadded, Base64.decode?_encode]

/-- Nothing in a token has a meaning inside markup. -/
theorem escapeMarkup_text : Text.escapeMarkup (text k seed n) = text k seed n := by
  have plain : ∀ c ∈ (text k seed n).toList, Text.escapeMarkupChar c = [c] := by
    intro c hc
    have letter := (plain_text hc).1
    unfold Text.escapeMarkupChar
    repeat' split
    all_goals first | rfl | (subst c; exact absurd letter (by decide))
  have whole : (text k seed n).toList.flatMap Text.escapeMarkupChar = (text k seed n).toList := by
    rw [List.flatMap_congr plain, List.flatMap_singleton']
  rw [Text.escapeMarkup, whole, String.ofList_toList]

theorem decrypt_of_decode? {t : String} (ascii : CipherKey.isAscii t.toList = true)
    (vector : seed.vector.length = 16) (fits : Integer.fits n = true)
    (h : Base64.decode? (padded t.toList) = some (wrap k seed (payload n))) :
    decrypt k t = .ok n := by
  rw [decrypt, if_pos ascii, h]
  dsimp only [Option.bind_some]
  rw [unwrap?_wrap vector]
  dsimp only
  rw [if_pos (length_payload n), ofPayload_payload fits]

theorem decrypt_text (vector : seed.vector.length = 16) (fits : Integer.fits n = true) :
    decrypt k (text k seed n) = .ok n :=
  decrypt_of_decode? isAscii_text vector fits decode?_text

/-- A text that is read as a number holds the bytes of a token of this number. -/
theorem decode?_of_decrypt {t : String} (h : decrypt k t = .ok n) :
    CipherKey.isAscii t.toList = true ∧ Integer.fits n = true ∧ ∃ seed : TokenSeed, seed.Valid ∧
      Base64.decode? (padded t.toList) = some (wrap k seed (payload n)) := by
  unfold decrypt at h
  split at h
  · rename_i ascii
    split at h
    · cases h
    · rename_i data opened
      split at h
      · rename_i size
        obtain rfl := Except.ok.inj h
        obtain ⟨bytes, decoded, unwrapped⟩ := Option.bind_eq_some_iff.1 opened
        obtain ⟨seed, valid, rfl⟩ := wrap_of_unwrap? unwrapped
        exact ⟨ascii, fits_ofPayload size, seed, valid, by rw [payload_ofPayload size, decoded]⟩
      · cases h
  · cases h

theorem decrypt_fault {t : String} {fault : RenderFault} (h : decrypt k t = .error fault) :
    ∃ reason, fault = .undecryptable reason := by
  unfold decrypt at h
  repeat' split at h
  all_goals cases h
  all_goals exact ⟨_, rfl⟩

end Text

section Outcomes

theorem call_encrypt (g : Globals) (n : Int) :
    GlobalFunction.call g "encrypt_number" [.int n] = (encrypt g.key g.seed n).map .string := rfl

theorem call_decrypt (g : Globals) (t : String) :
    GlobalFunction.call g "decrypt_number" [.string t] = (decrypt g.key t).map .int := rfl

/-- Numbers of 64 bits make tokens that are read back and stand in a page as they are; all others
are refused by a mismatch that tells the number, unless it has too many digits to be told. -/
theorem encrypt_outcomes (g : Globals) (vector : g.seed.vector.length = 16) (n : Int) :
    (-2 ^ 63 ≤ n ∧ n < 2 ^ 63 → ∃ token : String,
      GlobalFunction.call g "encrypt_number" [.int n] = .ok (.string token) ∧
      GlobalFunction.call g "decrypt_number" [.string token] = .ok (.int n) ∧
      (∀ c ∈ token.toList, c.isAlphanum ∨ c = '-' ∨ c = '_') ∧ '=' ∉ token.toList ∧
      ∀ scope loops depth position e, e.eval g scope ⟨loops, []⟩ = .ok (.string token) →
        Node.render g scope loops depth (.output position e true) = .ok [token]) ∧
    (¬(-2 ^ 63 ≤ n ∧ n < 2 ^ 63) →
      (Integer.Writable n → GlobalFunction.call g "encrypt_number" [.int n] =
        .error (.mismatch .integer64 (toString n) (some .encryption))) ∧
      (¬Integer.Writable n →
        GlobalFunction.call g "encrypt_number" [.int n] = .error .integerTooLong)) := by
  rw [← Integer.fits_iff_range, call_encrypt]
  constructor
  · intro fits
    rw [encrypt_of_fits fits]
    refine ⟨text g.key g.seed n, rfl, ?_, fun c hc => (plain_text hc).1,
      fun pad => (plain_text pad).2.1 rfl, ?_⟩
    · rw [call_decrypt, decrypt_text vector fits]
      rfl
    · intro scope loops depth position e evaluated
      rw [Node.render, evaluated]
      exact congrArg (fun shown => Except.ok [shown]) escapeMarkup_text
  · intro wide
    rw [encrypt, if_neg wide]
    constructor
    · intro short
      rw [short.tooWide]
      rfl
    · intro long
      rw [Integer.tooWide_of_not_writable long]
      rfl

def zeros : Globals := ⟨⟨List.replicate 32 0, rfl⟩, ⟨0, List.replicate 16 0⟩, "", 0⟩

theorem encrypt_outcomes_zeros : zeros.seed.vector.length = 16 ∧
    (∃ token : String, GlobalFunction.call zeros "encrypt_number" [.int (-7)] =
      .ok (.string token) ∧
      GlobalFunction.call zeros "decrypt_number" [.string token] = .ok (.int (-7))) ∧
    GlobalFunction.call zeros "encrypt_number" [.int (2 ^ 63)] =
      .error (.mismatch .integer64 "9223372036854775808" (some .encryption)) := by
  obtain ⟨token, made, read, -⟩ := (encrypt_outcomes zeros rfl (-7)).1 (by decide)
  have writable : Integer.Writable (2 ^ 63) :=
    Integer.writable_of_le (k := 63) (by decide) (by decide)
  exact ⟨rfl, ⟨token, made, read⟩, ((encrypt_outcomes zeros rfl (2 ^ 63)).2 (by decide)).1 writable⟩

/-- A number that cannot be told is refused in other words. -/
theorem encrypt_untold : 2 ^ 63 ≤ (10 : Int) ^ 4300 ∧
    GlobalFunction.call zeros "encrypt_number" [.int (10 ^ 4300)] = .error .integerTooLong := by
  have wide : 2 ^ 63 ≤ (10 : Int) ^ NumeralFault.digitLimit :=
    calc (2 : Int) ^ 63 ≤ 10 ^ 63 := by norm_num
      _ ≤ 10 ^ NumeralFault.digitLimit := pow_le_pow_right₀ (by norm_num) (by decide)
  have long : ¬Integer.Writable (10 ^ NumeralFault.digitLimit) := Integer.not_writable_pow
  have unfit : ¬Integer.fits (10 ^ NumeralFault.digitLimit) = true :=
    mt Integer.writable_of_fits long
  have refused : GlobalFunction.call zeros "encrypt_number" [.int (10 ^ NumeralFault.digitLimit)] =
      .error .integerTooLong := by
    rw [call_encrypt, encrypt, if_neg unfit, Integer.tooWide_of_not_writable long]
    rfl
  exact ⟨wide, refused⟩

/-- What is read as a number, and all that can come of what is not. -/
theorem decrypt_outcomes (k : CipherKey) (t : String) :
    (∀ n, decrypt k t = .ok n ↔
      CipherKey.isAscii t.toList = true ∧ ∃ (seed : TokenSeed) (token : String),
      seed.Valid ∧ encrypt k seed n = .ok token ∧
        Base64.decode? (padded t.toList) = Base64.decode? (padded token.toList)) ∧
    (∀ bytes, t.toList = Base64.unpadded bytes →
      ∀ n, decrypt k t = .ok n ↔ ∃ seed : TokenSeed, seed.Valid ∧ encrypt k seed n = .ok t) ∧
    ∀ fault, decrypt k t = .error fault → ∃ reason, fault = .undecryptable reason := by
  refine ⟨fun n => ?_, fun bytes written n => ?_, fun fault => decrypt_fault⟩
  · constructor
    · intro read
      obtain ⟨ascii, fits, seed, valid, decoded⟩ := decode?_of_decrypt read
      exact ⟨ascii, seed, text k seed n, valid, encrypt_of_fits fits, by rw [decoded, decode?_text]⟩
    · rintro ⟨ascii, seed, token, valid, made, alike⟩
      obtain ⟨fits, rfl⟩ := encrypt_eq_ok_iff.1 made
      exact decrypt_of_decode? ascii valid.vector fits (by rw [alike, decode?_text])
  · constructor
    · intro read
      obtain ⟨-, fits, seed, valid, decoded⟩ := decode?_of_decrypt read
      rw [written, Base64.padded_unpadded, Base64.decode?_encode] at decoded
      refine ⟨seed, valid, encrypt_eq_ok_iff.2 ⟨fits, ?_⟩⟩
      rw [text, ← Option.some.inj decoded, ← written, String.ofList_toList]
    · rintro ⟨seed, valid, made⟩
      obtain ⟨fits, rfl⟩ := encrypt_eq_ok_iff.1 made
      exact decrypt_text valid.vector fits

/-- The token of seven, its last letter changed in bits that are not read. -/
def altered : String :=
  "gAAAAAAAAAAAAAAAAAAAAAAAAAAAAAAAAN1Zx9VFXdePK1VxEYEjZgTpzhQjq9_4yPj_5HYHAxPLyKdi9oJkONnvfnNEXIV5Jx"

/-- A text that is read as a number, though it is the token of none. -/
theorem decrypt_altered :
    decrypt zeros.key altered = .ok 7 ∧ ∀ seed n, encrypt zeros.key seed n ≠ .ok altered := by
  have ascii : CipherKey.isAscii altered.toList = true := by decide +kernel
  have bytes : Base64.decode? (padded altered.toList) =
      some (wrap zeros.key zeros.seed (payload 7)) := by
    decide +kernel
  have other : (Base64.decode? (padded altered.toList)).map Base64.unpadded ≠
      some altered.toList := by
    decide +kernel
  refine ⟨decrypt_of_decode? ascii rfl rfl bytes, fun seed n made => other ?_⟩
  obtain ⟨-, same⟩ := encrypt_eq_ok_iff.1 made
  rw [same, decode?_text, Option.map_some, text, String.toList_ofList]

end Outcomes
end NumberToken
end Stencil
