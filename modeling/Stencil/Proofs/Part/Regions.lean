import Stencil.Proofs.Part.Quotes

/-! The search for the closing delimiter of a tag passes over whatever stands between quotes. Here
it also notes where these regions are. -/
namespace Stencil

structure Region where
  start : Nat
  stop : Nat
  deriving DecidableEq, Repr

namespace Part

def passing (text : List Char) (regions : List Region) (found : List Char × List Region) :
    List Char × List Region := (text ++ found.1, regions ++ found.2)

/-- The search for the end of a code that also notes the regions between quotes. The next character
has offset `i`; an open quote comes with its own offset. -/
def search : Option (Char × Nat) → Nat → List Char → Option (List Char × List Region)
  | none, _, '%' :: '>' :: _ => some ([], [])
  | none, i, c :: rest =>
    (search (if c = '"' ∨ c = '\'' then some (c, i) else none) (i + 1) rest).map (passing [c] [])
  | some open_, i, '\\' :: e :: rest =>
    (search (some open_) (i + 2) rest).map (passing ['\\', e] [])
  | some (quote, start), i, c :: rest =>
    if c = quote then (search none (i + 1) rest).map (passing [c] [⟨start, i + 1⟩])
    else (search (some (quote, start)) (i + 1) rest).map (passing [c] [])
  | _, _, [] => none

theorem map_passing (text : List Char) (regions : List Region)
    (x : Option (List Char × List Region)) :
    (x.map (passing text regions)).map Prod.fst = (x.map Prod.fst).map (text ++ ·) := by
  cases x <;> rfl

theorem map_passing_ne_nil {c : Char} {text : List Char} {noted regions : List Region}
    {x : Option (List Char × List Region)} :
    x.map (passing (c :: text) noted) ≠ some ([], regions) := by
  cases x <;> simp [passing]

theorem eq_some_of_map_passing {text code : List Char} {noted regions : List Region}
    {x : Option (List Char × List Region)}
    (h : x.map (passing text noted) = some (text ++ code, regions)) :
    ∃ more, x = some (code, more) ∧ regions = noted ++ more := by
  obtain ⟨⟨rest, more⟩, rfl, found⟩ := Option.map_eq_some_iff.1 h
  obtain ⟨same, rfl⟩ := Prod.mk.inj found
  obtain rfl : rest = code := List.append_cancel_left same
  exact ⟨more, rfl, rfl⟩

/-- To note regions does not change what is found. -/
theorem search_code (q : Option (Char × Nat)) (i : Nat) (cs : List Char) :
    (search q i cs).map Prod.fst = codeRun (q.map Prod.fst) cs := by
  fun_induction search q i cs with
  | case1 => rfl
  | case2 i c rest hc ih =>
    rw [map_passing, ih, Option.map_none, codeRun.eq_2 _ _ hc, apply_ite (Option.map Prod.fst)]
    rfl
  | case3 open_ i e rest ih =>
    rw [map_passing, ih]
    rfl
  | case4 start i c rest hc ih =>
    rw [map_passing, ih, Option.map_some, codeRun.eq_4 _ _ _ hc, if_pos rfl]
    rfl
  | case5 quote start i c rest hc other ih =>
    rw [map_passing, ih, Option.map_some, codeRun.eq_4 _ _ _ hc, if_neg other]
    rfl
  | case6 q i => cases q <;> rfl

/-- From a closed code on, that code is found, with some regions in it. -/
theorem exists_search {code : List Char} (h : Quotes.Closed .outside code) (i : Nat)
    (rest : List Char) :
    ∃ regions, search none i (code ++ closer ++ rest) = some (code, regions) := by
  have found : (search none i (code ++ closer ++ rest)).map Prod.fst = some code := by
    rw [search_code]
    exact Quotes.codeRun_append (q := none) h rest
  obtain ⟨⟨code, regions⟩, hsearch, rfl⟩ := Option.map_eq_some_iff.1 found
  exact ⟨regions, hsearch⟩

variable {i start : Nat} {c quote : Char} {cs code : List Char} {regions : List Region}

theorem search_nil (h : search none i cs = some ([], regions)) : regions = [] := by
  unfold search at h
  split at h
  · cases h
    rfl
  all_goals simp_all [passing]

/-- A code does not end inside quotes. -/
theorem search_inside_nil (open_ : Char × Nat) (i : Nat) (cs : List Char) (regions : List Region) :
    search (some open_) i cs ≠ some ([], regions) := by
  intro h
  unfold search at h
  split at h
  case h_4 =>
    split at h <;> exact map_passing_ne_nil h
  all_goals simp_all [passing]

/-- Nor does it end with a backslash there. -/
theorem search_inside_backslash (open_ : Char × Nat) (i : Nat) (cs : List Char)
    (regions : List Region) :
    search (some open_) i ('\\' :: cs) ≠ some (['\\'], regions) := by
  intro h
  cases cs with
  | nil =>
    rw [search.eq_4 _ _ _ _ _ (by simp)] at h
    split at h <;> simp [search] at h
  | cons e cs =>
    rw [search, Option.map_eq_some_iff] at h
    obtain ⟨found, -, same⟩ := h
    cases same

/-- Outside quotes, a character that the code starts with opens a region or leaves no trace. -/
theorem search_outside (h : search none i (c :: cs) = some (c :: code, regions)) :
    search (if c = '"' ∨ c = '\'' then some (c, i) else none) (i + 1) cs =
      some (code, regions) := by
  have here : ∀ tail, c = '%' → cs = '>' :: tail → False := by
    intro tail percent closes
    subst percent closes
    cases h
  rw [search.eq_2 _ _ _ here] at h
  obtain ⟨more, found, rfl⟩ := eq_some_of_map_passing h
  exact found

theorem search_append {u : List Char} (hu : ∀ c ∈ u, ¬ (c = '"' ∨ c = '\''))
    (h : search none i (u ++ cs) = some (u ++ code, regions)) :
    search none (i + u.length) cs = some (code, regions) := by
  induction u generalizing i with
  | nil => exact h
  | cons c u ih =>
    obtain ⟨first, others⟩ := List.forall_mem_cons.1 hu
    have next := search_outside h
    rw [if_neg first] at next
    have later := ih others next
    rwa [Nat.add_assoc, Nat.add_comm 1] at later

/-- Inside quotes, a backslash takes the next character with it. -/
theorem search_backslash {open_ : Char × Nat} {e : Char}
    (h : search (some open_) i ('\\' :: e :: cs) = some ('\\' :: e :: code, regions)) :
    search (some open_) (i + 2) cs = some (code, regions) := by
  rw [search] at h
  obtain ⟨more, found, rfl⟩ := eq_some_of_map_passing h
  exact found

/-- Inside quotes, any other character closes the region or leaves no trace. -/
theorem search_inside (hc : c ≠ '\\')
    (h : search (some (quote, start)) i (c :: cs) = some (c :: code, regions)) :
    if c = quote then
      ∃ later, search none (i + 1) cs = some (code, later) ∧ regions = ⟨start, i + 1⟩ :: later
    else search (some (quote, start)) (i + 1) cs = some (code, regions) := by
  rw [search.eq_4 _ _ _ _ _ fun _ _ same _ => hc same] at h
  by_cases same : c = quote
  · rw [if_pos same] at h ⊢
    obtain ⟨later, found, rfl⟩ := eq_some_of_map_passing h
    exact ⟨later, found, rfl⟩
  · rw [if_neg same] at h ⊢
    obtain ⟨more, found, rfl⟩ := eq_some_of_map_passing h
    exact found

end Part
end Stencil
