import Stencil.Cipher.NumberToken
import Stencil.Proofs.Number.Extent

/-! Numbers as bytes: eight of them hold an integer of 64 bits with its sign. -/
namespace Stencil

theorem ofBigEndian_concat (bytes : List UInt8) (b : UInt8) :
    ofBigEndian (bytes ++ [b]) = 256 * ofBigEndian bytes + b.toNat := by
  simp [ofBigEndian, List.foldl_append]

theorem ofBigEndian_bigEndian (width n : Nat) :
    ofBigEndian (bigEndian width n) = n % 256 ^ width := by
  induction width generalizing n with
  | zero => rw [pow_zero, Nat.mod_one]; rfl
  | succ width ih =>
    rw [bigEndian, ofBigEndian_concat, ih, pow_succ', Nat.mod_mul, UInt8.toNat_ofNat', add_comm]

theorem bigEndian_ofBigEndian (bytes : List UInt8) :
    bigEndian bytes.length (ofBigEndian bytes) = bytes := by
  induction bytes using List.reverseRecOn with
  | nil => rfl
  | append_singleton bytes b ih =>
    have digit := b.toNat_lt
    have before : (256 * ofBigEndian bytes + b.toNat) / 256 = ofBigEndian bytes := by omega
    have last : UInt8.ofNat (256 * ofBigEndian bytes + b.toNat) = b := by
      rw [← UInt8.toNat_inj, UInt8.toNat_ofNat']
      omega
    rw [List.length_append, List.length_singleton, bigEndian, ofBigEndian_concat, before, last, ih]

theorem ofBigEndian_lt (bytes : List UInt8) : ofBigEndian bytes < 256 ^ bytes.length := by
  induction bytes using List.reverseRecOn with
  | nil => simp [ofBigEndian]
  | append_singleton bytes b ih =>
    have digit := b.toNat_lt
    rw [ofBigEndian_concat, List.length_append, List.length_singleton, pow_succ]
    omega

namespace NumberToken

theorem length_payload (n : Int) : (payload n).length = 8 := length_bigEndian 8 _

theorem payload_eq (n : Int) : payload n = bigEndian 8 (n % 2 ^ 64).toNat := rfl

theorem ofPayload_eq (bytes : List UInt8) :
    ofPayload bytes =
      if ofBigEndian bytes < 2 ^ 63 then (ofBigEndian bytes : Int)
      else ofBigEndian bytes - 2 ^ 64 :=
  rfl

theorem fits_ofPayload {bytes : List UInt8} (h : bytes.length = 8) :
    Integer.fits (ofPayload bytes) = true := by
  have bound := ofBigEndian_lt bytes
  rw [h] at bound
  rw [Integer.fits_iff_range, ofPayload_eq]
  split <;> omega

theorem ofPayload_payload {n : Int} (h : Integer.fits n = true) : ofPayload (payload n) = n := by
  rw [Integer.fits_iff_range] at h
  rw [ofPayload_eq, payload_eq, ofBigEndian_bigEndian]
  split <;> omega

theorem payload_ofPayload {bytes : List UInt8} (h : bytes.length = 8) :
    payload (ofPayload bytes) = bytes := by
  have bound := ofBigEndian_lt bytes
  rw [h] at bound
  have same : (ofPayload bytes % 2 ^ 64).toNat = ofBigEndian bytes := by
    rw [ofPayload_eq]
    split <;> omega
  rw [payload_eq, same, ← h, bigEndian_ofBigEndian]

end NumberToken
end Stencil
