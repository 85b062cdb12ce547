import Stencil.Proofs.Cipher.Block

/-! Blocks in a row. A text of whole blocks is its blocks, a chain is decrypted to what was
encrypted and the other way round, and filled up texts are just those that can be cut back. -/
namespace Stencil.Aes

section Blocks

@[simp] theorem length_bytes (x : Block) : x.bytes.length = 16 := rfl

theorem blocks_append (x : Block) (rest : List UInt8) :
    blocks (x.bytes ++ rest) = x :: blocks rest := rfl

@[simp] theorem blocks_flatMap (xs : List Block) : blocks (xs.flatMap Block.bytes) = xs := by
  induction xs with
  | nil => rfl
  | cons x rest ih => rw [List.flatMap_cons, blocks_append, ih]

@[simp] theorem length_flatMap (xs : List Block) :
    (xs.flatMap Block.bytes).length = 16 * xs.length := by
  induction xs with
  | nil => rfl
  | cons x rest ih =>
    rw [List.flatMap_cons, List.length_append, ih, length_bytes, List.length_cons]
    omega

theorem exists_column {n : Nat} {bytes : List UInt8} (h : n + 4 ≤ bytes.length) :
    ∃ (x : Column) (rest : List UInt8), bytes = x.bytes ++ rest ∧ n ≤ rest.length := by
  obtain _ | ⟨a, _ | ⟨b, _ | ⟨c, _ | ⟨d, rest⟩⟩⟩⟩ := bytes
  case cons.cons.cons.cons => exact ⟨⟨a, b, c, d⟩, rest, rfl, by simpa using h⟩
  all_goals simp at h

/-- Sixteen bytes and more begin with a block. -/
theorem exists_block {bytes : List UInt8} (h : 16 ≤ bytes.length) :
    ∃ (x : Block) (rest : List UInt8), bytes = x.bytes ++ rest := by
  obtain ⟨p, rest, rfl, twelve⟩ := exists_column (n := 12) h
  obtain ⟨q, rest, rfl, eight⟩ := exists_column (n := 8) twelve
  obtain ⟨r, rest, rfl, four⟩ := exists_column (n := 4) eight
  obtain ⟨s, rest, rfl, -⟩ := exists_column (n := 0) four
  exact ⟨⟨p, q, r, s⟩, rest, by simp [Block.bytes]⟩

theorem flatMap_blocks {bytes : List UInt8} (whole : bytes.length % 16 = 0) :
    (blocks bytes).flatMap Block.bytes = bytes := by
  obtain ⟨n, size⟩ : ∃ n, bytes.length = 16 * n := ⟨bytes.length / 16, by omega⟩
  clear whole
  induction n generalizing bytes with
  | zero =>
    obtain rfl : bytes = [] := by simpa using size
    rfl
  | succ n ih =>
    obtain ⟨x, rest, rfl⟩ := @exists_block bytes (by omega)
    rw [List.length_append, length_bytes] at size
    rw [blocks_append, List.flatMap_cons, ih (by omega)]

end Blocks

theorem decryptChain_encryptChain (key previous : Block) (xs : List Block) :
    decryptChain key previous (encryptChain key previous xs) = xs := by
  induction xs generalizing previous with
  | nil => rfl
  | cons x rest ih =>
    simp only [encryptChain, decryptChain, decryptBlock_encryptBlock, Block.add_add, ih]

theorem encryptChain_decryptChain (key previous : Block) (ys : List Block) :
    encryptChain key previous (decryptChain key previous ys) = ys := by
  induction ys generalizing previous with
  | nil => rfl
  | cons y rest ih =>
    simp only [encryptChain, decryptChain, Block.add_add, encryptBlock_decryptBlock, ih]

section Padding
variable {bytes data : List UInt8}

theorem length_pad (bytes : List UInt8) : (pad bytes).length = 16 * (bytes.length / 16 + 1) := by
  rw [pad, List.length_append, List.length_replicate, blockSize]
  omega

theorem unpad?_pad (bytes : List UInt8) : unpad? (pad bytes) = some bytes := by
  obtain ⟨missing, more, few, filled⟩ : ∃ missing, 1 ≤ missing ∧ missing ≤ 16 ∧
      pad bytes = bytes ++ List.replicate missing (UInt8.ofNat missing) :=
    ⟨16 - bytes.length % 16, by omega, by omega, rfl⟩
  have told : (UInt8.ofNat missing).toNat = missing :=
    UInt8.toNat_ofNat_of_lt' (few.trans_lt (by decide))
  have last : (pad bytes).getLast? = some (UInt8.ofNat missing) := by
    rw [filled, List.getLast?_append, List.getLast?_replicate, if_neg (by omega)]
    rfl
  have size : (pad bytes).length - missing = bytes.length := by simp [filled]
  rw [unpad?, last]
  dsimp only
  rw [told, size, filled, List.drop_left, List.take_left, if_pos]
  exact ⟨more, few, by simp⟩

/-- What can be cut back was filled up. -/
theorem pad_of_unpad? (whole : bytes.length % 16 = 0) (h : unpad? bytes = some data) :
    pad data = bytes := by
  unfold unpad? at h
  split at h
  · cases h
  · rename_i last hlast
    dsimp only at h
    split at h
    · rename_i padded
      obtain ⟨more, few, alike⟩ := padded
      obtain rfl := Option.some.inj h
      -- the last byte tells how much to cut, and never more than there is in a text of whole blocks
      obtain ⟨size, here⟩ : ∃ size, bytes.length = size + last.toNat := by
        have nonempty : 0 < bytes.length := List.length_pos_of_mem (List.mem_of_getLast? hlast)
        exact ⟨bytes.length - last.toNat, by rw [blockSize] at few; omega⟩
      rw [blockSize] at few
      have cut : bytes.length - last.toNat = size := by omega
      rw [cut] at alike ⊢
      have tail : bytes.drop size = List.replicate last.toNat last := by
        refine List.eq_replicate_iff.2 ⟨by rw [List.length_drop]; omega, fun b hb => ?_⟩
        simpa using List.all_eq_true.1 alike b hb
      have missing : 16 - (bytes.take size).length % 16 = last.toNat := by
        rw [List.length_take]
        omega
      rw [pad, blockSize, missing, UInt8.ofNat_toNat, ← tail, List.take_append_drop]
    · cases h

end Padding

end Stencil.Aes
