import Mathlib.Logic.Basic
import Stencil.Cipher.NumberToken

/-! What is written in base 64 is read back, with its padding or with the padding left out. -/
namespace Stencil.Base64

section Letters

theorem letter_lt (n : Fin 64) :
    value? (letter n) = some n.val ∧ letter n ∈ letters := by
  revert n
  decide +kernel

theorem value?_letter {n : Nat} (h : n < 64) : value? (letter n) = some n := (letter_lt ⟨n, h⟩).1

theorem letter_mem {n : Nat} (h : n < 64) : letter n ∈ letters := (letter_lt ⟨n, h⟩).2

/-- A letter is a plain character, and no padding. -/
theorem of_mem_letters {c : Char} (h : c ∈ letters) :
    (c.isAlphanum ∨ c = '-' ∨ c = '_') ∧ c ≠ '=' ∧ c.toNat < 128 := by
  have all : (letters.all fun c =>
      (c.isAlphanum || c == '-' || c == '_') && c != '=' && c.toNat < 128) = true := by
    decide +kernel
  simpa [and_assoc, or_assoc] using List.all_eq_true.1 all c h

theorem letter_ne_pad {n : Nat} (h : n < 64) : letter n ≠ '=' := (of_mem_letters (letter_mem h)).2.1

end Letters

section Reading
variable {v : Nat} {left pads : Nat} {rest : List Char}

theorem decodeFrom_first (h : v < 64) :
    decodeFrom 0 left pads (letter v :: rest) = decodeFrom 1 v 0 rest := by
  rw [decodeFrom, if_neg (letter_ne_pad h), value?_letter h]
  rfl

theorem decodeFrom_second (h : v < 64) :
    decodeFrom 1 left pads (letter v :: rest) =
      (decodeFrom 2 (v % 16) 0 rest).map (UInt8.ofNat (left * 4 + v / 16) :: ·) := by
  rw [decodeFrom, if_neg (letter_ne_pad h), value?_letter h]
  rfl

theorem decodeFrom_third (h : v < 64) :
    decodeFrom 2 left pads (letter v :: rest) =
      (decodeFrom 3 (v % 4) 0 rest).map (UInt8.ofNat (left * 16 + v / 4) :: ·) := by
  rw [decodeFrom, if_neg (letter_ne_pad h), value?_letter h]
  rfl

theorem decodeFrom_fourth (h : v < 64) :
    decodeFrom 3 left pads (letter v :: rest) =
      (decodeFrom 0 0 0 rest).map (UInt8.ofNat (left * 64 + v) :: ·) := by
  rw [decodeFrom, if_neg (letter_ne_pad h), value?_letter h]
  rfl

theorem ofNat_eq {b : UInt8} {n : Nat} (h : n = b.toNat) : UInt8.ofNat n = b := by
  rw [h, UInt8.ofNat_toNat]

theorem decode?_encode (bytes : List UInt8) : decode? (encode bytes) = some bytes := by
  unfold decode?
  induction bytes using encode.induct with
  | case1 => rfl
  | case2 a =>
    have ha := a.toNat_lt
    rw [encode, decodeFrom_first (by omega), decodeFrom_second (by omega)]
    exact congrArg (fun b => some [b]) (ofNat_eq (by omega))
  | case3 a b =>
    have ha := a.toNat_lt
    have hb := b.toNat_lt
    rw [encode, decodeFrom_first (by omega), decodeFrom_second (by omega),
      decodeFrom_third (by omega)]
    exact congrArg₂ (fun a b => some [a, b]) (ofNat_eq (by omega)) (ofNat_eq (by omega))
  | case4 a b c rest ih =>
    have ha := a.toNat_lt
    have hb := b.toNat_lt
    have hc := c.toNat_lt
    rw [encode, decodeFrom_first (by omega), decodeFrom_second (by omega),
      decodeFrom_third (by omega), decodeFrom_fourth (by omega), ih]
    have first : UInt8.ofNat (a.toNat / 4 * 4 + (a.toNat % 4 * 16 + b.toNat / 16) / 16) = a :=
      ofNat_eq (by omega)
    have second : UInt8.ofNat ((a.toNat % 4 * 16 + b.toNat / 16) % 16 * 16 +
        (b.toNat % 16 * 4 + c.toNat / 64) / 4) = b := ofNat_eq (by omega)
    have third : UInt8.ofNat ((b.toNat % 16 * 4 + c.toNat / 64) % 4 * 64 + c.toNat % 64) = c :=
      ofNat_eq (by omega)
    rw [first, second, third]
    rfl

end Reading

section Padding

/-- Letters come first, and padding makes the last group whole. -/
theorem encode_eq (bytes : List UInt8) :
    ∃ (body : List Char) (pads : Nat), encode bytes = body ++ List.replicate pads '=' ∧
      (∀ c ∈ body, c ∈ letters) ∧ pads < 4 ∧ (body.length + pads) % 4 = 0 := by
  induction bytes using encode.induct with
  | case1 => exact ⟨[], 0, rfl, by simp, by decide, rfl⟩
  | case2 a =>
    have ha := a.toNat_lt
    refine ⟨[letter (a.toNat / 4), letter (a.toNat % 4 * 16)], 2, rfl, ?_, by decide, by simp⟩
    simp only [List.forall_mem_cons]
    exact ⟨letter_mem (by omega), letter_mem (by omega), List.forall_mem_nil _⟩
  | case3 a b =>
    have ha := a.toNat_lt
    have hb := b.toNat_lt
    refine ⟨[letter (a.toNat / 4), letter (a.toNat % 4 * 16 + b.toNat / 16),
      letter (b.toNat % 16 * 4)], 1, rfl, ?_, by decide, by simp⟩
    simp only [List.forall_mem_cons]
    exact ⟨letter_mem (by omega), letter_mem (by omega), letter_mem (by omega),
      List.forall_mem_nil _⟩
  | case4 a b c rest ih =>
    have ha := a.toNat_lt
    have hb := b.toNat_lt
    have hc := c.toNat_lt
    obtain ⟨body, pads, written, inside, few, whole⟩ := ih
    refine ⟨letter (a.toNat / 4) :: letter (a.toNat % 4 * 16 + b.toNat / 16) ::
      letter (b.toNat % 16 * 4 + c.toNat / 64) :: letter (c.toNat % 64) :: body, pads, ?_,
        ?_, few, ?_⟩
    · rw [encode, written]
      rfl
    · simp only [List.forall_mem_cons]
      exact ⟨letter_mem (by omega), letter_mem (by omega), letter_mem (by omega),
        letter_mem (by omega), inside⟩
    · simp only [List.length_cons]
      omega

def unpadded (bytes : List UInt8) : List Char := (encode bytes).filter (· != '=')

/-- What is left without padding is the letters. -/
theorem unpadded_eq {bytes : List UInt8} {body : List Char} {pads : Nat}
    (written : encode bytes = body ++ List.replicate pads '=') (inside : ∀ c ∈ body, c ∈ letters) :
    unpadded bytes = body := by
  have kept : body.filter (· != '=') = body :=
    List.filter_eq_self.2 fun c hc => by simpa using (of_mem_letters (inside c hc)).2.1
  rw [unpadded, written, List.filter_append, kept]
  simp

theorem mem_letters_of_unpadded {bytes : List UInt8} {c : Char} (h : c ∈ unpadded bytes) :
    c ∈ letters := by
  obtain ⟨body, pads, written, inside, -⟩ := encode_eq bytes
  rw [unpadded_eq written inside] at h
  exact inside c h

/-- Padding that was left out can be put back. -/
theorem padded_unpadded (bytes : List UInt8) :
    NumberToken.padded (unpadded bytes) = encode bytes := by
  obtain ⟨body, pads, written, inside, few, whole⟩ := encode_eq bytes
  have missing : (4 - body.length % 4) % 4 = pads := by omega
  rw [unpadded_eq written inside, NumberToken.padded, missing, written]

end Padding

end Stencil.Base64
