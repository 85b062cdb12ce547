import Stencil.Expr.Eval
import Stencil.Proofs.Cipher.Payload
import Stencil.Proofs.Value.Converted

/-! What is called by name: operations and members of a value, and the functions. From sound values
that can be counted they make sound values, or they end in faults of rendering. -/
namespace Stencil
open Outcome

namespace Integer

theorem fits_natCast {n : Nat} (h : (n : Int) ≤ greatest) : fits n = true := by
  have most : (n : Int) ≤ 2 ^ 63 - 1 := h
  rw [fits_iff_range]
  omega

end Integer

namespace Operation
open Value

variable {R : Record → Prop}

theorem forall_pairsFrom {start : Nat} {xs : List Value} (h : ∀ v ∈ xs, Sound R v)
    (counted : (start + xs.length : Nat) ≤ Integer.greatest + 1) :
    ∀ v ∈ pairsFrom start xs, Sound R v := by
  induction xs generalizing start with
  | nil => simp [pairsFrom]
  | cons x rest ih =>
    obtain ⟨first, others⟩ := List.forall_mem_cons.1 h
    rw [List.length_cons] at counted
    refine List.forall_mem_cons.2 ⟨.pair (.int (Integer.fits_natCast ?_)) first, ih others ?_⟩
    · omega
    · rw [Nat.add_assoc, Nat.add_comm 1]
      exact counted

def Unchecked (R : Record → Prop) (v : Value) : Prop :=
  Sound R v ∨ ∃ n, v = .int n ∧ Integer.Writable n

theorem integerOf_meets (called : String) (x : Float) {r : Except RenderFault.NoInteger Int}
    (h : ∀ n, r = .ok n → Integer.Writable n) :
    Meets (Unchecked R) RenderFault.Reported (integerOf called x r) := by
  unfold integerOf
  split
  · rename_i n
    exact .inr ⟨n, rfl, h n rfl⟩
  · exact rfl

theorem integerOf_rounded_meets (called : String) (x : Float) {rule : Rat → Int}
    (near : ∀ (q : Rat) (b : Int), |q| ≤ b → |rule q| ≤ b) :
    Meets (Unchecked R) RenderFault.Reported (integerOf called x (rounded rule x)) := by
  apply integerOf_meets
  intro n found
  exact writable_rounded (fun q b hq => (near q b hq).trans (by omega)) found

theorem writable_roundedNearest {x : Float} {n : Int} (h : roundedNearest x = .ok n) :
    Integer.Writable n := by
  unfold roundedNearest at h
  split at h
  · rename_i m found
    cases h
    exact writable_rounded (fun _ _ => Rounding.abs_nearest_le) found
  · cases h

/-- What has a text of its own has no parts. -/
theorem display_of_kind {v : Value} (h : v.kind ∈ toText.kinds) : ∃ s, v.display 0 = .ok s := by
  cases v with
  | bool | int | float | string => exact ⟨_, rfl⟩
  | null | list | pair | mapping | record => simp [Value.kind, kinds] at h

theorem kind_of_find? {kind : Value.Kind} {name : String} {o : Operation}
    (h : find? kind name = some o) :
    kind ∈ o.kinds := by
  have told := List.find?_some h
  rw [Bool.and_eq_true, List.contains_iff_mem] at told
  exact told.1

theorem apply_meets (o : Operation) (called : String) {v : Value} (kind : v.kind ∈ o.kinds)
    (h : Sound R v) (counted : v.Countable) :
    Meets (Unchecked R) RenderFault.Reported (o.apply called v) := by
  have made {w : Value} (hw : Sound R w) : Meets (Unchecked R) RenderFault.Reported (.ok w) :=
    .inl hw
  unfold apply
  split
  -- numbers
  · rename_i n
    refine Or.inr ⟨n.natAbs, rfl, Integer.writable_of_le (k := 63) ?_ (by decide)⟩
    rw [Int.natAbs_natCast]
    exact Integer.natAbs_le_of_fits (sound_int_iff.1 h)
  · exact made (.float _)
  · obtain ⟨s, shown⟩ := display_of_kind kind
    rw [shown]
    exact made (.string s)
  · split
    · exact made (.float _)
    · exact rfl
  · exact integerOf_rounded_meets called _ fun _ _ => Rounding.abs_truncate_le
  · rename_i n
    by_cases negative : n < 0
    · rw [if_pos negative]
      exact rfl
    · by_cases huge : Integer.greatest < n
      · rw [if_neg negative, if_pos huge]
        exact rfl
      · rw [if_neg negative, if_neg huge]
        refine made (.list (List.forall_mem_map.2 fun i hi => .int (Integer.fits_natCast ?_)))
        have below := List.mem_range.1 hi
        omega
  · exact integerOf_rounded_meets called _ fun _ _ => Rounding.abs_ceil_le
  · exact integerOf_rounded_meets called _ fun _ _ => Rounding.abs_floor_le
  · exact integerOf_meets called _ fun n found => writable_roundedNearest found
  -- texts
  · exact made (.string _)
  · exact made (.string _)
  · exact made (.string _)
  -- sizes, which are counted
  · exact made (.int (Integer.fits_natCast counted))
  · exact made (.int (Integer.fits_natCast counted))
  · exact made (.int (Integer.fits_natCast counted))
  -- lists and mappings
  · rename_i xs
    have fewer : ((0 + xs.length : Nat) : Int) ≤ Integer.greatest + 1 := by
      have least : (xs.length : Int) ≤ Integer.greatest := counted
      omega
    exact made (.list (forall_pairsFrom (sound_list_iff.1 h) fewer))
  · rename_i xs
    exact made (.list fun v hv => sound_list_iff.1 h v (List.mem_reverse.1 hv))
  · exact made (.list (List.forall_mem_map.2 fun e _ => .string e.1))
  · exact made (.list (List.forall_mem_map.2 (sound_mapping_iff.1 h).2))
  · have entries := (sound_mapping_iff.1 h).2
    exact made (.list (List.forall_mem_map.2 fun e he => .pair (.string e.1) (entries e he)))
  · exact rfl

theorem checkResult_meets (called : String) {v : Value} (h : Unchecked R v) :
    Meets (Sound R) RenderFault.Reported (checkResult called v) := by
  unfold checkResult
  split
  · rename_i n
    have writable : Integer.Writable n := by
      rcases h with sound | ⟨m, same, writable⟩
      · exact Integer.writable_of_fits (sound_int_iff.1 sound)
      · cases same
        exact writable
    exact (checkInteger_meets (.resultOf called) writable).map fun m fits => Sound.int fits
  · rename_i other
    rcases h with sound | ⟨n, same, _⟩
    · exact sound
    · exact absurd same (other n)

theorem call_meets {v : Value} (h : Sound R v) (counted : v.Countable) (name : String)
    (args : List Value) :
    Meets (Sound R) RenderFault.Reported (call v name args) := by
  unfold call
  split
  · exact rfl
  · rename_i o found
    split
    · exact (apply_meets o name (kind_of_find? found) h counted).bind fun w =>
        checkResult_meets name
    · exact rfl

end Operation

namespace Value
variable {R : Record → Prop} {F : RenderFault → Prop}

theorem member_meets (readable : Record.Readable R F) (site : Site) {v : Value} (h : Sound R v)
    (counted : v.Countable) (name : String) (args : List Value) :
    Meets (Sound R) F (v.member site name args) := by
  have reported {x : Except RenderFault Value} (hx : Meets (Sound R) RenderFault.Reported x) :
      Meets (Sound R) F x := hx.imp_error readable.reported
  unfold member
  by_cases operation : (Operation.find? v.kind name).isSome = true
  · rw [if_pos operation]
    exact reported (Operation.call_meets h counted name args)
  · rw [if_neg operation]
    split
    · exact reported rfl
    · cases h with
      | mapping distinct entries =>
        rename_i es
        dsimp only
        split
        · rename_i x found
          exact entries (name, x) (mem_of_lookup found)
        · exact reported rfl
      | record hr =>
        refine (readable.field _ hr site name).bind fun found hfound => ?_
        split
        · exact hfound _ rfl
        · exact reported rfl
      | null | bool | int | float | string | list | pair => exact reported rfl

end Value

namespace GlobalFunction
open Value
variable {R : Record → Prop}

theorem apply_meets (g : Globals) (f : GlobalFunction) {args : List Value}
    (h : ∀ v ∈ args, Sound R v) :
    Meets (Sound R) RenderFault.Reported (f.apply g args) := by
  unfold apply
  split
  · rename_i n
    have fits : Integer.fits n = true := sound_int_iff.1 (h _ (by simp))
    rw [NumberToken.encrypt, if_pos fits]
    exact Sound.string _
  · exact rfl
  · rename_i token
    rw [NumberToken.decrypt]
    by_cases ascii : CipherKey.isAscii token.toList = true
    · rw [if_pos ascii]
      split
      · exact rfl
      · rename_i data _
        by_cases size : data.length = 8
        · rw [if_pos size]
          exact Sound.int (NumberToken.fits_ofPayload size)
        · rw [if_neg size]
          exact rfl
    · rw [if_neg ascii]
      exact rfl
  · exact rfl
  · exact Sound.string _
  · split
    · exact rfl
    · exact rfl

theorem call_meets (g : Globals) (name : String) {args : List Value} (h : ∀ v ∈ args, Sound R v) :
    Meets (Sound R) RenderFault.Reported (call g name args) := by
  unfold call
  split
  · exact apply_meets g _ h
  · exact rfl

end GlobalFunction

end Stencil
