import Mathlib.Data.List.TakeWhile
import Stencil.Text.Raw

/-! Which texts have bytes: those without surrogates. Of the others, what stands in the way is the
first run of surrogates. -/
namespace Stencil

namespace CodePoint

theorem val_ofChar (c : Char) : (ofChar c).val = c.toNat := by
  have bound : c.toNat < 0x110000 := by
    have valid := c.valid
    simp only [UInt32.isValidChar, Nat.isValidChar] at valid
    change c.val.toNat < _
    omega
  exact Nat.mod_eq_of_lt bound

theorem isSurrogate_ofChar (c : Char) : (ofChar c).isSurrogate = false := by
  have valid := c.valid
  simp only [UInt32.isValidChar, Nat.isValidChar] at valid
  rw [isSurrogate, val_ofChar, Bool.and_eq_false_iff]
  change decide (0xD800 ≤ c.val.toNat) = false ∨ decide (c.val.toNat < 0xE000) = false
  simp only [decide_eq_false_iff_not]
  omega

theorem char?_eq_none_iff {c : CodePoint} : c.char? = none ↔ c.isSurrogate = true := by
  unfold char?
  split <;> simp_all

theorem char?_eq_some_iff {c : CodePoint} {x : Char} : c.char? = some x ↔ c = ofChar x := by
  constructor
  · intro found
    by_cases surrogate : c.isSurrogate = true
    · rw [char?_eq_none_iff.2 surrogate] at found
      cases found
    · rw [char?, if_neg surrogate] at found
      cases found
      have valid : c.val.isValidChar := by
        simp only [isSurrogate, Bool.and_eq_true, decide_eq_true_eq] at surrogate
        have bound := c.isLt
        simp only [Nat.isValidChar]
        omega
      refine Fin.ext ?_
      rw [val_ofChar, Char.ofNat, dif_pos valid]
      rfl
  · rintro rfl
    rw [char?, isSurrogate_ofChar, val_ofChar, Char.ofNat_toNat]
    rfl

end CodePoint

namespace RawText
variable {t : RawText} {points before run after : List CodePoint}

theorem text?_eq_some_iff {s : String} : t.text? = some s ↔ t = ofString s := by
  have chars (points : List CodePoint) (cs : List Char) :
      points.mapM CodePoint.char? = some cs ↔ points = cs.map CodePoint.ofChar := by
    induction points generalizing cs with
    | nil => cases cs <;> simp
    | cons c points ih =>
      cases cs with
      | nil => simp [Option.bind_eq_some_iff]
      | cons x cs => simp [Option.bind_eq_some_iff, CodePoint.char?_eq_some_iff, ih]
  obtain ⟨points⟩ := t
  rw [text?, ofString, Option.map_eq_some_iff, mk.injEq, ← chars]
  constructor
  · rintro ⟨cs, found, rfl⟩
    rwa [String.toList_ofList]
  · exact fun found => ⟨s.toList, found, String.ofList_toList⟩

theorem text?_eq_none_iff : t.text? = none ↔ ∃ c ∈ t.points, c.isSurrogate = true := by
  have chars (cs : List CodePoint) :
      cs.mapM CodePoint.char? = none ↔ ∃ c ∈ cs, c.isSurrogate = true := by
    induction cs with
    | nil => simp
    | cons c cs ih =>
      cases h : c.char? with
      | none => simp [h, CodePoint.char?_eq_none_iff.1 h]
      | some x =>
        have plain : c.isSurrogate = false := by
          rw [← Bool.not_eq_true, ← CodePoint.char?_eq_none_iff, h]
          nofun
        cases rest : cs.mapM CodePoint.char? <;> simp_all
  rw [text?, Option.map_eq_none_iff, chars]

theorem utf8_ofString (s : String) : (ofString s).utf8 = .ok s.toUTF8.data.toList := by
  rw [utf8, text?_eq_some_iff.2 rfl]

/-- Parted at its first row of surrogates. -/
structure Parted (points before run after : List CodePoint) : Prop where
  whole : points = before ++ run ++ after
  plain : ∀ c ∈ before, c.isSurrogate = false
  some : run ≠ []
  surrogates : ∀ c ∈ run, c.isSurrogate = true
  ended : ∀ c ∈ after.head?, c.isSurrogate = false

theorem exists_parted (h : ∃ c ∈ points, c.isSurrogate = true) :
    ∃ before run after, Parted points before run after := by
  let rest := points.dropWhile fun c => !c.isSurrogate
  have whole : points = (points.takeWhile fun c => !c.isSurrogate) ++ rest :=
    List.takeWhile_append_dropWhile.symm
  refine ⟨points.takeWhile fun c => !c.isSurrogate, rest.takeWhile CodePoint.isSurrogate,
    rest.dropWhile CodePoint.isSurrogate, ?_, fun c hc => ?_, ?_, fun c hc => ?_, fun c hc => ?_⟩
  · rwa [List.append_assoc, List.takeWhile_append_dropWhile]
  · simpa using List.mem_takeWhile_imp hc
  · obtain ⟨c, hc, surrogate⟩ := h
    have left : rest ≠ [] := fun none => by
      rw [List.dropWhile_eq_nil_iff] at none
      simpa [surrogate] using none c hc
    obtain ⟨d, ds, split⟩ := List.exists_cons_of_ne_nil left
    have first : d.isSurrogate = true := by
      have stopped := List.head?_dropWhile_not (fun c : CodePoint => !c.isSurrogate) points
      rw [show points.dropWhile (fun c => !c.isSurrogate) = d :: ds from split] at stopped
      simpa using stopped
    rw [split, List.takeWhile_cons_of_pos first]
    exact List.cons_ne_nil _ _
  · exact List.mem_takeWhile_imp hc
  · have stopped := List.head?_dropWhile_not CodePoint.isSurrogate rest
    rw [Option.mem_def.1 hc] at stopped
    simpa using stopped

theorem Parted.encodingFault (h : Parted t.points before run after) :
    t.encodingFault = ⟨before.length, run⟩ := by
  obtain ⟨c, cs, rfl⟩ := List.exists_cons_of_ne_nil h.some
  have rest : (t.points.dropWhile fun c => !c.isSurrogate) = c :: cs ++ after := by
    rw [h.whole, List.append_assoc, List.dropWhile_append_of_pos (by simpa using h.plain),
      List.cons_append, List.dropWhile_cons_of_neg (by simp [h.surrogates c])]
  have row : (c :: cs ++ after).takeWhile CodePoint.isSurrogate = c :: cs := by
    rw [List.takeWhile_append_of_pos h.surrogates]
    cases after with
    | nil => simp
    | cons d ds => rw [List.takeWhile_cons_of_neg (by simp [h.ended d rfl]), List.append_nil]
  rw [RawText.encodingFault, rest, row, h.whole]
  simp

theorem Parted.text? (h : Parted t.points before run after) : t.text? = none := by
  obtain ⟨c, cs, rfl⟩ := List.exists_cons_of_ne_nil h.some
  exact text?_eq_none_iff.2 ⟨c, by simp [h.whole], h.surrogates c (by simp)⟩

/-- The fault tells of the first surrogates, all that stand in a row. -/
theorem Parted.utf8 (h : Parted t.points before run after) :
    t.utf8 = .error ⟨before.length, run⟩ := by
  rw [RawText.utf8, h.text?, h.encodingFault]

theorem not_exists_ofString_iff :
    (¬∃ s, t = ofString s) ↔ ∃ before run after, Parted t.points before run after := by
  constructor
  · intro other
    refine exists_parted
      (text?_eq_none_iff.1 (Option.eq_none_iff_forall_ne_some.2 fun s found => ?_))
    exact other ⟨s, text?_eq_some_iff.1 found⟩
  · rintro ⟨before, run, after, parted⟩ ⟨s, rfl⟩
    have found := text?_eq_some_iff.2 (rfl : ofString s = ofString s)
    rw [parted.text?] at found
    cases found

end RawText
end Stencil
