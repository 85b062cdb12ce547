import Mathlib.Data.Fintype.EquivFin
import Mathlib.Data.List.GetD
import Mathlib.Logic.Function.Basic
import Stencil.Cipher.Aes

/-! A block is decrypted to what was encrypted, and encrypted to what was decrypted. Each step of a
round is undone by a step of the way back; the mixing of columns is linear, so that it is enough to
undo it for columns of one byte. -/
namespace Stencil.Aes

section Substitution

def bits (ns : List Nat) : Nat := ns.foldl (fun set n => set ||| 1 <<< n) 0

theorem testBit_foldl (set : Nat) {ns : List Nat} {n : Nat}
    (h : (ns.foldl (fun set n => set ||| 1 <<< n) set).testBit n = true) :
    set.testBit n = true ∨ n ∈ ns := by
  induction ns generalizing set with
  | nil => exact .inl h
  | cons m ns ih =>
    rcases ih (set ||| 1 <<< m) h with inside | later
    · by_cases same : n = m
      · exact .inr (same ▸ List.mem_cons_self)
      · rw [Nat.testBit_or, Nat.one_shiftLeft, Nat.testBit_two_pow_of_ne (Ne.symm same),
          Bool.or_false] at inside
        exact .inl inside
    · exact .inr (List.mem_cons_of_mem m later)

/-- No byte is missing in the table. -/
theorem mem_substitution (b : UInt8) : b ∈ substitution := by
  have full : bits (substitution.map UInt8.toNat) = 2 ^ 256 - 1 := by decide +kernel
  have member : b.toNat ∈ substitution.map UInt8.toNat := by
    have inside : (bits (substitution.map UInt8.toNat)).testBit b.toNat = true := by
      rw [full, Nat.testBit_two_pow_sub_one]
      simpa using b.toNat_lt
    exact (testBit_foldl 0 inside).resolve_left (by simp)
  obtain ⟨c, hc, same⟩ := List.mem_map.1 member
  rwa [← UInt8.toNat_inj.1 same]

theorem sub_unsub (b : UInt8) : sub (unsub b) = b := by
  have place := List.idxOf_lt_length_of_mem (mem_substitution b)
  have size : substitution.length = 256 := by decide +kernel
  have small : substitution.idxOf b < 256 := size ▸ place
  rw [sub, unsub, UInt8.toNat_ofNat_of_lt' small, List.getD_eq_getElem _ _ place,
    List.getElem_idxOf]

/-- There are finitely many bytes, so what undoes the substitution on one side does so on the
other. -/
theorem unsub_sub : ∀ b, unsub (sub b) = b := by
  have : Finite UInt8 := Finite.of_injective UInt8.toFin fun _ _ h => UInt8.toFin_inj.1 h
  have left : Function.LeftInverse sub unsub := sub_unsub
  exact left.rightInverse_of_surjective (Finite.surjective_of_injective left.injective)

end Substitution

section Linear

theorem shiftRight_seven (b : UInt8) : b >>> 7 = 0 ∨ b >>> 7 = 1 := by
  have bit : (b >>> 7).toNat < 2 := by
    rw [UInt8.toNat_shiftRight, Nat.shiftRight_eq_div_pow]
    have := b.toNat_lt
    simp
    omega
  have cases : (b >>> 7).toNat = 0 ∨ (b >>> 7).toNat = 1 := by omega
  simpa [← UInt8.toNat_inj] using cases

theorem double_xor (x y : UInt8) : double (x ^^^ y) = double x ^^^ double y := by
  -- the bit that leaves the byte is added back as a constant, and two of them cancel
  have carry : ((x ^^^ y) >>> 7) * (0x1b : UInt8) =
      (x >>> 7) * (0x1b : UInt8) ^^^ (y >>> 7) * (0x1b : UInt8) := by
    rw [UInt8.shiftRight_xor]
    rcases shiftRight_seven x with hx | hx <;> rcases shiftRight_seven y with hy | hy
      <;> rw [hx, hy] <;> rfl
  rw [double, carry, UInt8.shiftLeft_xor, double, double]
  ac_rfl

theorem double_zero : double 0 = 0 := rfl

theorem xor_left_comm (x y z : UInt8) : x ^^^ (y ^^^ z) = y ^^^ (x ^^^ z) := by ac_rfl

theorem xor_xor_cancel (x y : UInt8) : x ^^^ (x ^^^ y) = y := by
  rw [← UInt8.xor_assoc, UInt8.xor_self, UInt8.zero_xor]

end Linear

namespace Column

theorem add_add (x k : Column) : (x.add k).add k = x := by
  simp only [add, UInt8.xor_assoc, UInt8.xor_self, UInt8.xor_zero]

theorem mix_add (x y : Column) : (x.add y).mix = x.mix.add y.mix := by
  simp only [mix, add, times3, double_xor, mk.injEq]
  refine ⟨?_, ?_, ?_, ?_⟩ <;> ac_rfl

theorem unmix_add (x y : Column) : (x.add y).unmix = x.unmix.add y.unmix := by
  simp only [unmix, add, times9, times11, times13, times14, double_xor, mk.injEq]
  refine ⟨?_, ?_, ?_, ?_⟩ <;> ac_rfl

/-- A linear map that leaves columns of one byte alone leaves every column alone. -/
theorem eq_self_of_linear {f : Column → Column} (linear : ∀ x y, f (x.add y) = (f x).add (f y))
    (units : ∀ b, f ⟨b, 0, 0, 0⟩ = ⟨b, 0, 0, 0⟩ ∧ f ⟨0, b, 0, 0⟩ = ⟨0, b, 0, 0⟩ ∧
      f ⟨0, 0, b, 0⟩ = ⟨0, 0, b, 0⟩ ∧ f ⟨0, 0, 0, b⟩ = ⟨0, 0, 0, b⟩) (x : Column) : f x = x := by
  have sum : x = (((⟨x.a, 0, 0, 0⟩ : Column).add ⟨0, x.b, 0, 0⟩).add ⟨0, 0, x.c, 0⟩).add ⟨0, 0, 0,
      x.d⟩ := by
    simp [add]
  rw [sum, linear, linear, linear, (units x.a).1, (units x.b).2.1, (units x.c).2.2.1,
    (units x.d).2.2.2]

theorem unmix_mix (x : Column) : x.mix.unmix = x := by
  refine eq_self_of_linear (f := fun x => x.mix.unmix) (fun x y => by rw [mix_add, unmix_add])
    (fun b => ?_) x
  simp only [mix, unmix, times3, times9, times11, times13, times14, double_xor, double_zero,
    UInt8.xor_assoc, UInt8.xor_comm, xor_left_comm, xor_xor_cancel, UInt8.xor_self, UInt8.xor_zero,
      UInt8.zero_xor, and_self]

theorem mix_unmix (x : Column) : x.unmix.mix = x := by
  refine eq_self_of_linear (f := fun x => x.unmix.mix) (fun x y => by rw [unmix_add, mix_add])
    (fun b => ?_) x
  simp only [mix, unmix, times3, times9, times11, times13, times14, double_xor, double_zero,
    UInt8.xor_assoc, UInt8.xor_comm, xor_left_comm, xor_xor_cancel, UInt8.xor_self, UInt8.xor_zero,
      UInt8.zero_xor, and_self]

end Column

namespace Block

theorem add_add (x k : Block) : (x.add k).add k = x := by simp [add, Column.add_add]

theorem map_map {f g : Column → Column} (h : ∀ x, g (f x) = x) (x : Block) :
    (x.map f).map g = x := by
  simp [map, h]

theorem unsub_sub (x : Block) : (x.map (·.map sub)).map (·.map unsub) = x :=
  map_map (fun x => by simp [Column.map, Aes.unsub_sub]) x

theorem sub_unsub (x : Block) : (x.map (·.map unsub)).map (·.map sub) = x :=
  map_map (fun x => by simp [Column.map, Aes.sub_unsub]) x

theorem unmix_mix (x : Block) : (x.map .mix).map .unmix = x := map_map Column.unmix_mix x

theorem mix_unmix (x : Block) : (x.map .unmix).map .mix = x := map_map Column.mix_unmix x

end Block

theorem backward_forward (ks : List Block) (x : Block) : backward ks (forward ks x) = x := by
  induction ks, x using forward.induct with
  | case1 x => rfl
  | case2 x k => rw [forward, backward, Block.add_add, Block.unshift_shift, Block.unsub_sub]
  | case3 x k rest notLast ih =>
    rw [forward.eq_3 _ _ _ notLast, backward.eq_3 _ _ _ notLast, ih, Block.add_add, Block.unmix_mix,
      Block.unshift_shift, Block.unsub_sub]

theorem forward_backward (ks : List Block) (x : Block) : forward ks (backward ks x) = x := by
  induction ks generalizing x with
  | nil => rfl
  | cons k rest ih =>
    cases rest with
    | nil => rw [backward, forward, Block.sub_unsub, Block.shift_unshift, Block.add_add]
    | cons next rest =>
      rw [backward.eq_3 _ _ _ (by simp), forward.eq_3 _ _ _ (by simp), Block.sub_unsub,
        Block.shift_unshift, Block.mix_unmix, Block.add_add, ih]

theorem decryptBlock_encryptBlock (key x : Block) : decryptBlock key (encryptBlock key x) = x := by
  rw [decryptBlock, encryptBlock, backward_forward, Block.add_add]

theorem encryptBlock_decryptBlock (key x : Block) : encryptBlock key (decryptBlock key x) = x := by
  rw [decryptBlock, encryptBlock, Block.add_add, forward_backward]

end Stencil.Aes
