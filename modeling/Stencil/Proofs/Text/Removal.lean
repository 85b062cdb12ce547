import Mathlib.Data.List.Infix
import Stencil.Text.Removal

/-! What is removed from a text are the leftmost occurrences that do not overlap. They part a text
in one way only, and what stays are the pieces between them: where these meet, nothing is looked
for. -/
namespace Stencil.Text
variable {t s u v : List Char} {us vs : List (List Char)}

def FirstBehind (t u : List Char) : Prop := ∀ i < u.length, ¬ t <+: (u ++ t).drop i

/-- A text parted by `t`: the pieces that have it behind them, where it occurs for the first time,
and a last one without any. -/
structure Parted (t s : List Char) (pieces : List (List Char)) (last : List Char) : Prop where
  joined : pieces.flatMap (· ++ t) ++ last = s
  first : ∀ u ∈ pieces, FirstBehind t u
  free : ¬ t <:+: last

instance : Decidable (FirstBehind t u) :=
  inferInstanceAs (Decidable (∀ i < u.length, ¬ t <+: (u ++ t).drop i))

instance : Decidable (Parted t s us u) :=
  decidable_of_iff (us.flatMap (· ++ t) ++ u = s ∧ (∀ v ∈ us, FirstBehind t v) ∧ ¬ t <:+: u)
    ⟨fun ⟨joined, first, free⟩ => ⟨joined, first, free⟩, fun h => ⟨h.joined, h.first, h.free⟩⟩

theorem firstBehind_nil (t : List Char) : FirstBehind t [] := nofun

theorem firstBehind_cons_iff {c : Char} :
    FirstBehind t (c :: u) ↔ ¬ t <+: c :: (u ++ t) ∧ FirstBehind t u :=
  Nat.forall_lt_succ_left

theorem FirstBehind.length_le (first : FirstBehind t v) (h : u ++ t <+: v ++ t) :
    v.length ≤ u.length := by
  by_contra shorter
  obtain ⟨more, same⟩ := h
  refine first u.length (by omega) ?_
  rw [← same, List.append_assoc, List.drop_left]
  exact List.prefix_append t more

theorem FirstBehind.eq_of_prefix (first : FirstBehind t v) (h : u ++ t <+: v ++ t) : u = v := by
  have longer := first.length_le h
  have shorter := h.length_le
  rw [List.length_append, List.length_append] at shorter
  apply List.append_cancel_right
  apply h.eq_of_length
  rw [List.length_append, List.length_append]
  omega

/-- A text has one beginning at most with its first `t` behind it. -/
theorem FirstBehind.unique (hu : FirstBehind t u) (hv : FirstBehind t v) (pu : u ++ t <+: s)
    (pv : v ++ t <+: s) : u = v := by
  rcases List.prefix_or_prefix_of_prefix pu pv with h | h
  · exact hv.eq_of_prefix h
  · exact (hu.eq_of_prefix h).symm

theorem parted_nil_iff : Parted t s [] u ↔ u = s ∧ ¬ t <:+: u :=
  ⟨fun h => ⟨h.joined, h.free⟩, fun ⟨same, free⟩ => ⟨same, nofun, free⟩⟩

theorem parted_cons_iff :
    Parted t s (v :: us) u ↔ FirstBehind t v ∧ ∃ rest, v ++ t ++ rest = s ∧ Parted t rest us u := by
  constructor
  · intro h
    obtain ⟨first, others⟩ := List.forall_mem_cons.1 h.first
    refine ⟨first, us.flatMap (· ++ t) ++ u, ?_, rfl, others, h.free⟩
    rw [← h.joined, List.flatMap_cons, List.append_assoc (v ++ t)]
  · rintro ⟨first, rest, same, parted⟩
    refine ⟨?_, List.forall_mem_cons.2 ⟨first, parted.first⟩, parted.free⟩
    rw [List.flatMap_cons, List.append_assoc (v ++ t), parted.joined, same]

/-- A text is parted in one way at most: the first pieces are the same, and so are the texts behind
them. -/
theorem Parted.unique (h : Parted t s us u) (other : Parted t s vs v) : us = vs ∧ u = v := by
  induction us generalizing s vs with
  | nil =>
    obtain ⟨rfl, free⟩ := parted_nil_iff.1 h
    cases vs with
    | nil => exact ⟨rfl, (parted_nil_iff.1 other).1.symm⟩
    | cons w ws =>
      obtain ⟨-, rest, joined, -⟩ := parted_cons_iff.1 other
      exact absurd ⟨w, rest, joined⟩ free
  | cons w us ih =>
    obtain ⟨first, rest, joined, parted⟩ := parted_cons_iff.1 h
    cases vs with
    | nil =>
      obtain ⟨rfl, free⟩ := parted_nil_iff.1 other
      exact absurd ⟨w, rest, joined⟩ free
    | cons x vs =>
      obtain ⟨first', rest', joined', parted'⟩ := parted_cons_iff.1 other
      obtain rfl := first.unique first' ⟨rest, joined⟩ ⟨rest', joined'⟩
      obtain rfl := List.append_cancel_left (joined.trans joined'.symm)
      obtain ⟨rfl, same⟩ := ih parted parted'
      exact ⟨rfl, same⟩

theorem Parted.length (h : Parted t s us u) :
    (us.flatten ++ u).length + us.length * t.length = s.length := by
  induction us generalizing s with
  | nil =>
    obtain ⟨rfl, -⟩ := parted_nil_iff.1 h
    simp
  | cons v us ih =>
    obtain ⟨-, rest, rfl, parted⟩ := parted_cons_iff.1 h
    have others := ih parted
    simp only [List.flatten_cons, List.length_append, List.length_cons, Nat.succ_mul] at others ⊢
    omega

/-- A character at which `t` does not begin goes to the first piece. -/
theorem Parted.cons (h : Parted t s us u) {c : Char} (absent : ¬ t <+: c :: s) :
    ∃ vs v, Parted t (c :: s) vs v ∧ c :: (us.flatten ++ u) = vs.flatten ++ v := by
  cases us with
  | nil =>
    obtain ⟨rfl, free⟩ := parted_nil_iff.1 h
    have still_free : ¬ t <:+: c :: u :=
      fun inside => (List.infix_cons_iff.1 inside).elim absent free
    exact ⟨[], c :: u, parted_nil_iff.2 ⟨rfl, still_free⟩, rfl⟩
  | cons v us =>
    obtain ⟨first, rest, rfl, parted⟩ := parted_cons_iff.1 h
    have later : ¬ t <+: c :: (v ++ t) :=
      fun here => absent (here.trans (List.prefix_append _ rest))
    refine ⟨(c :: v) :: us, u, parted_cons_iff.2 ⟨firstBehind_cons_iff.2 ⟨later, first⟩, rest, rfl,
      parted⟩, rfl⟩

/-- The scan goes from left to right. It finds an occurrence where the first piece ends, passes over
it, and is then at the beginning of a text that is parted in its turn. -/
theorem removeFrom_parted (nonempty : t ≠ []) (skip : Nat) (s : List Char) :
    ∃ us u, Parted t (s.drop skip) us u ∧ removeFrom t skip s = us.flatten ++ u := by
  fun_induction removeFrom t skip s with
  | case1 skip =>
    rw [List.drop_nil]
    exact ⟨[], [], parted_nil_iff.2 ⟨rfl, fun inside => nonempty (List.infix_nil.1 inside)⟩, rfl⟩
  | case2 skip c rest ih => exact ih
  | case3 c rest here ih =>
    obtain ⟨us, u, parted, stays⟩ := ih
    obtain ⟨more, same⟩ := List.isPrefixOf_iff_prefix.1 here
    have behind : rest.drop (t.length - 1) = more := by
      obtain ⟨d, t, rfl⟩ := List.exists_cons_of_ne_nil nonempty
      obtain ⟨-, rfl⟩ := List.cons.inj same
      exact List.drop_left
    rw [behind] at parted
    exact ⟨[] :: us, u, parted_cons_iff.2 ⟨firstBehind_nil t, more, same, parted⟩, stays⟩
  | case4 c rest absent ih =>
    obtain ⟨us, u, parted, stays⟩ := ih
    rw [stays]
    exact parted.cons fun here => absent (List.isPrefixOf_iff_prefix.2 here)

theorem remove_parted (nonempty : t ≠ []) (s : List Char) :
    ∃ us u, Parted t s us u ∧ remove t s = us.flatten ++ u := by
  have scanned := removeFrom_parted nonempty 0 s
  cases t with
  | nil => exact absurd rfl nonempty
  | cons => exact scanned

end Stencil.Text
