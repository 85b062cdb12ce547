import Mathlib.Logic.Basic
import Stencil.File.Utf8
import Stencil.Proofs.Outcome

/-! Octets are read as a text exactly if they are what the text is written as in UTF-8. -/
namespace Stencil.Utf8
open Outcome
variable {b : UInt8} {rest bytes : List UInt8} {cs : List Char} {low high code n : Nat}

section Steps

theorem decodeFrom_last (h : low ≤ b.toNat ∧ b.toNat ≤ high) :
    decodeFrom 1 low high code (b :: rest) =
      (decode rest).map (Char.ofNat (64 * code + (b.toNat - 128)) :: ·) := by
  rw [decodeFrom, if_neg Nat.one_ne_zero, if_pos h]
  rfl

theorem decodeFrom_more (h : low ≤ b.toNat ∧ b.toNat ≤ high) :
    decodeFrom (n + 2) low high code (b :: rest) =
      decodeFrom (n + 1) 128 191 (64 * code + (b.toNat - 128)) rest := by
  rw [decodeFrom, if_neg (Nat.succ_ne_zero _), if_pos h]
  rfl

/-- While octets are to come, the next one is there and lies in its range. -/
theorem exists_cons_of_decodeFrom (h : decodeFrom (n + 1) low high code bytes = .ok cs) :
    ∃ b rest, bytes = b :: rest ∧ low ≤ b.toNat ∧ b.toNat ≤ high := by
  cases bytes with
  | nil => cases h
  | cons b rest =>
    rw [decodeFrom, if_neg (Nat.succ_ne_zero _)] at h
    split at h
    · rename_i inside
      exact ⟨b, rest, rfl, inside⟩
    · cases h

end Steps

section Leads

theorem lead?_one (h : b.toNat < 128) : lead? b.toNat = some (0, 128, 191, b.toNat) := if_pos h

theorem lead?_two (least : 194 ≤ b.toNat) (most : b.toNat < 224) :
    lead? b.toNat = some (1, 128, 191, b.toNat - 192) := by
  unfold lead?
  rw [if_neg (by omega), if_neg (by omega), if_pos most]

theorem lead?_three (least : 224 ≤ b.toNat) (most : b.toNat < 240) :
    lead? b.toNat = some (2, if b.toNat = 224 then 160 else 128, if b.toNat = 237 then 159 else 191,
      b.toNat - 224) := by
  unfold lead?
  rw [if_neg (by omega), if_neg (by omega), if_neg (by omega)]
  by_cases first : b.toNat = 224
  · simp [first]
  by_cases surrogate : b.toNat = 237
  · simp [surrogate]
  · rw [if_neg first, if_neg surrogate, if_pos most, if_neg first, if_neg surrogate]

theorem lead?_four (least : 240 ≤ b.toNat) (most : b.toNat < 245) :
    lead? b.toNat = some (3, if b.toNat = 240 then 144 else 128, if b.toNat = 244 then 143 else 191,
      b.toNat - 240) := by
  unfold lead?
  rw [if_neg (by omega), if_neg (by omega), if_neg (by omega), if_neg (by omega), if_neg (by omega),
    if_neg (by omega)]
  by_cases first : b.toNat = 240
  · simp [first]
  by_cases last : b.toNat = 244
  · simp [last]
  · rw [if_neg first, if_neg last, if_pos (by omega), if_neg first, if_neg last]

theorem lead?_eq_none (h : 128 ≤ b.toNat ∧ b.toNat < 194 ∨ 245 ≤ b.toNat) :
    lead? b.toNat = none := by
  unfold lead?
  rw [if_neg (by omega)]
  by_cases low : b.toNat < 194
  · rw [if_pos low]
  · rw [if_neg low, if_neg (by omega), if_neg (by omega), if_neg (by omega), if_neg (by omega),
      if_neg (by omega), if_neg (by omega), if_neg (by omega)]

end Leads

section Characters
open String (utf8EncodeChar)
variable {v : Nat}

theorem decode_single (h : lead? b.toNat = some (0, low, high, code)) :
    decode (b :: rest) = (decode rest).map (Char.ofNat code :: ·) := by
  rw [decode, decodeFrom, if_pos rfl, h]
  rfl

theorem decode_lead (h : lead? b.toNat = some (n + 1, low, high, code)) :
    decode (b :: rest) = decodeFrom (n + 1) low high code rest := by
  rw [decode, decodeFrom, if_pos rfl, h]
  rfl

theorem decode_start (h : lead? b.toNat = none) : decode (b :: rest) = .error .start := by
  rw [decode, decodeFrom, if_pos rfl, h]

theorem toNat_ofNat (h : v.isValidChar) : (Char.ofNat v).val.toNat = v := by
  rw [Char.ofNat, dif_pos h]
  rfl

theorem octet (h : v < 256) : (UInt8.ofNat v).toNat = v := UInt8.toNat_ofNat_of_lt' h

theorem back (same : v = b.toNat) : UInt8.ofNat v = b := by rw [same, UInt8.ofNat_toNat]

section One

theorem encode_one (h : v < 128) : utf8EncodeChar (Char.ofNat v) = [UInt8.ofNat v] := by
  unfold utf8EncodeChar
  rw [toNat_ofNat (.inl (by omega)), if_pos (by omega)]

theorem decode_one (h : v < 128) :
    decode (utf8EncodeChar (Char.ofNat v) ++ rest) = (decode rest).map (Char.ofNat v :: ·) := by
  have first := octet (v := v) (by omega)
  rw [encode_one h, List.singleton_append, decode_single (lead?_one (by omega)), first]

theorem exists_one (h : b.toNat < 128) : ∃ c rest', b :: rest = utf8EncodeChar c ++ rest' := by
  refine ⟨Char.ofNat b.toNat, rest, ?_⟩
  rw [encode_one h, back rfl]
  rfl

end One

section Two
variable (least : 128 ≤ v) (most : v < 2048)
include least most

theorem encode_two :
    utf8EncodeChar (Char.ofNat v) = [UInt8.ofNat (v / 64 + 192), UInt8.ofNat (v % 64 + 128)] := by
  unfold utf8EncodeChar
  rw [toNat_ofNat (.inl (by omega)), if_neg (by omega), if_pos (by omega),
    Nat.mod_eq_of_lt (by omega)]

theorem decode_two :
    decode (utf8EncodeChar (Char.ofNat v) ++ rest) = (decode rest).map (Char.ofNat v :: ·) := by
  have first := octet (v := v / 64 + 192) (by omega)
  have second := octet (v := v % 64 + 128) (by omega)
  have whole : 64 * (v / 64 + 192 - 192) + (v % 64 + 128 - 128) = v := by omega
  rw [encode_two least most, List.cons_append, List.singleton_append,
    decode_lead (lead?_two (by omega) (by omega)), first, decodeFrom_last (by omega), second, whole]

end Two

theorem exists_two (least : 194 ≤ b.toNat) (most : b.toNat < 224)
    (h : decode (b :: rest) = .ok cs) :
    ∃ c rest', b :: rest = utf8EncodeChar c ++ rest' := by
  rw [decode_lead (lead?_two least most)] at h
  obtain ⟨b', rest', rfl, low, high⟩ := exists_cons_of_decodeFrom h
  refine ⟨Char.ofNat (64 * (b.toNat - 192) + (b'.toNat - 128)), rest', ?_⟩
  rw [encode_two (by omega) (by omega), back (b := b) (by omega), back (b := b') (by omega)]
  rfl

section Three
variable (valid : v.isValidChar) (least : 2048 ≤ v) (most : v < 65536)
include valid least most

theorem encode_three :
    utf8EncodeChar (Char.ofNat v) =
      [UInt8.ofNat (v / 4096 + 224), UInt8.ofNat (v / 64 % 64 + 128),
        UInt8.ofNat (v % 64 + 128)] := by
  unfold utf8EncodeChar
  rw [toNat_ofNat valid, if_neg (by omega), if_neg (by omega), if_pos (by omega),
    Nat.mod_eq_of_lt (by omega)]

theorem decode_three :
    decode (utf8EncodeChar (Char.ofNat v) ++ rest) = (decode rest).map (Char.ofNat v :: ·) := by
  have bound : v < 55296 ∨ 57343 < v ∧ v < 1114112 := valid
  have first := octet (v := v / 4096 + 224) (by omega)
  have second := octet (v := v / 64 % 64 + 128) (by omega)
  have third := octet (v := v % 64 + 128) (by omega)
  have whole : 64 * (64 * (v / 4096 + 224 - 224) + (v / 64 % 64 + 128 - 128)) +
      (v % 64 + 128 - 128) = v := by
    omega
  rw [encode_three valid least most, List.cons_append, List.cons_append, List.singleton_append,
    decode_lead (lead?_three (by omega) (by omega)), first,
    decodeFrom_more (by split <;> split <;> omega), second,
    decodeFrom_last (by omega), third, whole]

end Three

theorem exists_three (least : 224 ≤ b.toNat) (most : b.toNat < 240)
    (h : decode (b :: rest) = .ok cs) :
    ∃ c rest', b :: rest = utf8EncodeChar c ++ rest' := by
  rw [decode_lead (lead?_three least most)] at h
  obtain ⟨b', rest', rfl, inside⟩ := exists_cons_of_decodeFrom h
  rw [decodeFrom_more inside] at h
  obtain ⟨b'', rest'', rfl, low, high⟩ := exists_cons_of_decodeFrom h
  refine ⟨Char.ofNat (64 * (64 * (b.toNat - 224) + (b'.toNat - 128)) + (b''.toNat - 128)),
    rest'', ?_⟩
  -- the second octet keeps the number out of the shorter forms and of the surrogates
  have range : 128 ≤ b'.toNat ∧ b'.toNat ≤ 191 ∧ (b.toNat = 224 → 160 ≤ b'.toNat) ∧
      (b.toNat = 237 → b'.toNat ≤ 159) := by
    revert inside
    split <;> split <;> omega
  have valid :
      (64 * (64 * (b.toNat - 224) + (b'.toNat - 128)) + (b''.toNat - 128)).isValidChar := by
    unfold Nat.isValidChar
    omega
  rw [encode_three valid (by omega) (by omega), back (b := b) (by omega), back (b := b') (by omega),
    back (b := b'') (by omega)]
  rfl

section Four
variable (valid : v.isValidChar) (least : 65536 ≤ v)
include valid least

theorem encode_four :
    utf8EncodeChar (Char.ofNat v) =
      [UInt8.ofNat (v / 262144 + 240), UInt8.ofNat (v / 4096 % 64 + 128),
        UInt8.ofNat (v / 64 % 64 + 128),
        UInt8.ofNat (v % 64 + 128)] := by
  unfold utf8EncodeChar
  rw [toNat_ofNat valid, if_neg (by omega), if_neg (by omega), if_neg (by omega),
    Nat.mod_eq_of_lt (by unfold Nat.isValidChar at valid; omega)]

theorem decode_four :
    decode (utf8EncodeChar (Char.ofNat v) ++ rest) = (decode rest).map (Char.ofNat v :: ·) := by
  have bound : v < 55296 ∨ 57343 < v ∧ v < 1114112 := valid
  have first := octet (v := v / 262144 + 240) (by omega)
  have second := octet (v := v / 4096 % 64 + 128) (by omega)
  have third := octet (v := v / 64 % 64 + 128) (by omega)
  have fourth := octet (v := v % 64 + 128) (by omega)
  have whole : 64 * (64 * (64 * (v / 262144 + 240 - 240) + (v / 4096 % 64 + 128 - 128)) +
      (v / 64 % 64 + 128 - 128)) + (v % 64 + 128 - 128) = v := by omega
  rw [encode_four valid least, List.cons_append, List.cons_append, List.cons_append,
    List.singleton_append, decode_lead (lead?_four (by omega) (by omega)), first,
    decodeFrom_more (by split <;> split <;> omega), second,
    decodeFrom_more (by omega), third, decodeFrom_last (by omega), fourth, whole]

end Four

theorem exists_four (least : 240 ≤ b.toNat) (most : b.toNat < 245)
    (h : decode (b :: rest) = .ok cs) :
    ∃ c rest', b :: rest = utf8EncodeChar c ++ rest' := by
  have byte := b.toNat_lt
  rw [decode_lead (lead?_four least most)] at h
  obtain ⟨b', rest', rfl, inside⟩ := exists_cons_of_decodeFrom h
  rw [decodeFrom_more inside] at h
  obtain ⟨b'', rest'', rfl, range'⟩ := exists_cons_of_decodeFrom h
  rw [decodeFrom_more range'] at h
  obtain ⟨b₃, rest₃, rfl, low, high⟩ := exists_cons_of_decodeFrom h
  refine ⟨Char.ofNat (64 * (64 * (64 * (b.toNat - 240) + (b'.toNat - 128)) + (b''.toNat - 128)) +
    (b₃.toNat - 128)), rest₃, ?_⟩
  have range : 128 ≤ b'.toNat ∧ b'.toNat ≤ 191 ∧ (b.toNat = 240 → 144 ≤ b'.toNat) ∧
      (b.toNat = 244 → b'.toNat ≤ 143) := by
    revert inside
    split <;> split <;> omega
  have valid : (64 * (64 * (64 * (b.toNat - 240) + (b'.toNat - 128)) + (b''.toNat - 128)) +
      (b₃.toNat - 128)).isValidChar := by
    unfold Nat.isValidChar
    omega
  rw [encode_four valid (by omega), back (b := b) (by omega), back (b := b') (by omega),
    back (b := b'') (by omega), back (b := b₃) (by omega)]
  rfl

/-- The octets of a character are read as this character. -/
theorem decode_encode_append (c : Char) (rest : List UInt8) :
    decode (utf8EncodeChar c ++ rest) = (decode rest).map (c :: ·) := by
  obtain ⟨v, valid, rfl⟩ : ∃ v : Nat, v.isValidChar ∧ c = Char.ofNat v :=
    ⟨c.toNat, c.valid, (Char.ofNat_toNat c).symm⟩
  by_cases one : v < 128
  · exact decode_one one
  by_cases two : v < 2048
  · exact decode_two (by omega) two
  by_cases three : v < 65536
  · exact decode_three valid (by omega) three
  · exact decode_four valid (by omega)

/-- Where a text is read, its first octets are those of a character. -/
theorem exists_character (h : decode (b :: rest) = .ok cs) :
    ∃ c rest', b :: rest = utf8EncodeChar c ++ rest' := by
  by_cases one : b.toNat < 128
  · exact exists_one one
  by_cases two : 194 ≤ b.toNat ∧ b.toNat < 224
  · exact exists_two two.1 two.2 h
  by_cases three : 224 ≤ b.toNat ∧ b.toNat < 240
  · exact exists_three three.1 three.2 h
  by_cases four : 240 ≤ b.toNat ∧ b.toNat < 245
  · exact exists_four four.1 four.2 h
  · rw [decode_start (lead?_eq_none (by omega))] at h
    cases h

/-- Octets are read as the text that they are the encoding of, and as no other. -/
theorem decode_eq_ok_iff : decode bytes = .ok cs ↔ bytes = cs.flatMap utf8EncodeChar := by
  constructor
  · intro h
    induction size : bytes.length using Nat.strongRecOn generalizing bytes cs with
    | ind n ih =>
      cases bytes with
      | nil =>
        cases h
        rfl
      | cons b rest =>
        obtain ⟨c, rest', same⟩ := exists_character h
        rw [same, decode_encode_append, map_eq_ok_iff] at h
        obtain ⟨cs', behind, rfl⟩ := h
        have shorter : rest'.length < n := by
          rw [← size, same, List.length_append]
          have some : 0 < (utf8EncodeChar c).length :=
            List.length_pos_iff.2 String.utf8EncodeChar_ne_nil
          omega
        rw [same, ih _ shorter behind rfl, List.flatMap_cons]
  · intro same
    subst same
    induction cs with
    | nil => rfl
    | cons c cs ih =>
      rw [List.flatMap_cons, decode_encode_append, ih]
      rfl

end Characters

end Stencil.Utf8
