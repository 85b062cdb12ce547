import Mathlib
import Stencil.Number.Numeral
import Stencil.Proofs.Outcome

/-! Which texts are numerals, and what they stand for. -/
namespace Stencil.Numeral

theorem decimalDigit?_ascii {c : Char} (h : c.isDigit = true) :
    Text.decimalDigit? c = some (c.toNat - 48) := by
  have ascii : Text.isAscii c = true := by
    simp only [Char.isDigit, Bool.and_eq_true, decide_eq_true_eq, ge_iff_le,
      UInt32.le_iff_toNat_le] at h
    simp only [Text.isAscii, decide_eq_true_eq]
    exact Nat.lt_of_le_of_lt h.2 (by decide)
  rw [Text.decimalDigit?, if_pos ascii, if_pos h]

/-- The values of digits, one by one. -/
theorem digits?_of_forall {cs : List Char} (h : ∀ c ∈ cs, isDecimalDigit c = true) :
    digits? cs = some (cs.filterMap Text.decimalDigit?) := by
  induction cs with
  | nil => rfl
  | cons c cs ih =>
    obtain ⟨hc, hcs⟩ := List.forall_mem_cons.1 h
    obtain ⟨d, hd⟩ := Option.isSome_iff_exists.1 hc
    rw [digits?, List.mapM_cons, hd, List.filterMap_cons_some hd]
    have later := ih hcs
    rw [digits?] at later
    rw [later]
    rfl

theorem digits?_eq_none {cs : List Char} {c : Char} (hc : c ∈ cs) (h : isDecimalDigit c = false) :
    digits? cs = none := by
  have missing : Text.decimalDigit? c = none := by simpa [isDecimalDigit] using h
  induction cs with
  | nil => cases hc
  | cons d cs ih =>
    rw [digits?, List.mapM_cons]
    rcases List.mem_cons.1 hc with rfl | later
    · rw [missing]
      rfl
    · have rest := ih later
      rw [digits?] at rest
      rw [rest]
      cases Text.decimalDigit? d <;> rfl

/-- The texts that stand for an integer. -/
theorem integer_eq_ok_iff (text : String) :
    (∃ n, integer text = .ok n) ↔
      (∀ c ∈ text.toList, isDecimalDigit c = true) ∧
      text.toList.length ≤ NumeralFault.digitLimit := by
  unfold integer
  by_cases all : ∀ c ∈ text.toList, isDecimalDigit c = true
  · rw [List.takeWhile_eq_self_iff.2 all, digits?_of_forall all]
    by_cases long : NumeralFault.digitLimit < text.toList.length
    · simp [long]
    · simp only [if_neg long]
      exact ⟨fun _ => ⟨all, Nat.not_lt.1 long⟩, fun _ => ⟨_, rfl⟩⟩
  · obtain ⟨c, hc, other⟩ : ∃ c ∈ text.toList, isDecimalDigit c = false := by simpa using all
    rw [digits?_eq_none hc other]
    constructor
    · intro given
      obtain ⟨n, h⟩ := given
      dsimp only at h
      split at h <;> cases h
    · exact fun given => absurd given.1 all

theorem filterMap_ascii {cs : List Char} (h : ∀ c ∈ cs, c.isDigit = true) :
    cs.filterMap Text.decimalDigit? = cs.map fun c => c.toNat - 48 := by
  induction cs with
  | nil => rfl
  | cons c cs ih =>
    obtain ⟨hc, hcs⟩ := List.forall_mem_cons.1 h
    rw [List.filterMap_cons_some (decimalDigit?_ascii hc), ih hcs, List.map_cons]

theorem ofDigits_toDigits (n : Nat) :
    ofDigits ((Nat.toDigits 10 n).map fun c => c.toNat - 48) = n := by
  rw [ofDigits, List.foldl_map]
  exact Nat.ofDigitChars_ten_toDigits

theorem isDigit_toDigits {n : Nat} {c : Char} (h : c ∈ Nat.toDigits 10 n) : c.isDigit = true :=
  Nat.isDigit_of_mem_toDigits (by decide) (by decide) h

theorem isDecimalDigit_toDigits {n : Nat} {c : Char} (h : c ∈ Nat.toDigits 10 n) :
    isDecimalDigit c = true := by
  rw [isDecimalDigit, decimalDigit?_ascii (isDigit_toDigits h)]
  rfl

/-- An integer is read back from its digits, unless there are too many of them. -/
theorem integer_toString {n : Nat} (h : n < 10 ^ NumeralFault.digitLimit) :
    integer (toString n) = .ok n := by
  have htext : (toString n).toList = Nat.toDigits 10 n := by simp
  have all : (Nat.toDigits 10 n).takeWhile isDecimalDigit = Nat.toDigits 10 n :=
    List.takeWhile_eq_self_iff.2 fun c hc => isDecimalDigit_toDigits hc
  have short := (Nat.length_toDigits_le_iff (b := 10) (by decide) (by decide)).2 h
  rw [integer, htext, all, if_neg (Nat.not_lt.2 short),
    digits?_of_forall fun c hc => isDecimalDigit_toDigits hc,
    filterMap_ascii fun c hc => isDigit_toDigits hc]
  simp only [ofDigits_toDigits]

theorem takeWhile_whole {whole : List Char} (h : '.' ∉ whole) (fraction : List Char) :
    (whole ++ '.' :: fraction).takeWhile (· != '.') = whole := by
  rw [List.takeWhile_append_of_pos]
  · simp
  · intro c hc
    refine bne_iff_ne.2 ?_
    intro same
    subst same
    exact h hc

/-- Digits, a dot and digits, read as one number. -/
theorem float_digits {whole fraction : List Char} (hw : ∀ c ∈ whole, isDecimalDigit c = true)
    (hf : ∀ c ∈ fraction, isDecimalDigit c = true) :
    float (String.ofList (whole ++ '.' :: fraction)) =
      .ok (decimal false (ofDigits ((whole ++ fraction).filterMap Text.decimalDigit?))
        (-fraction.length)) := by
  have dotless : '.' ∉ whole := fun hc => absurd (hw _ hc) (by decide)
  have hlen : (fraction.filterMap Text.decimalDigit?).length = fraction.length :=
    List.filterMap_length_eq_length.2 hf
  rw [float]
  simp only [String.toList_ofList, takeWhile_whole dotless, ← List.drop_drop, List.drop_left,
    List.drop_succ_cons, List.drop_zero, digits?_of_forall hw, digits?_of_forall hf,
    ← List.filterMap_append, hlen]

/-- The texts with a dot that stand for a number. -/
theorem float_eq_ok_iff {whole fraction : List Char} (h : '.' ∉ whole) :
    (∃ x, float (String.ofList (whole ++ '.' :: fraction)) = .ok x) ↔
      ∀ c ∈ whole ++ fraction, isDecimalDigit c = true := by
  constructor
  · intro given
    obtain ⟨x, hx⟩ := given
    rw [float] at hx
    simp only [String.toList_ofList, takeWhile_whole h, ← List.drop_drop, List.drop_left,
      List.drop_succ_cons, List.drop_zero] at hx
    by_contra other
    obtain ⟨c, hc, other⟩ : ∃ c ∈ whole ++ fraction, isDecimalDigit c = false := by
      simpa using other
    rcases List.mem_append.1 hc with hc | hc
    · rw [digits?_eq_none hc other] at hx
      cases hx
    · rw [digits?_eq_none hc other] at hx
      cases hd : digits? whole <;> simp [hd] at hx
  · intro all
    obtain ⟨hw, hf⟩ := List.forall_mem_append.1 all
    exact ⟨_, float_digits hw hf⟩

end Stencil.Numeral
