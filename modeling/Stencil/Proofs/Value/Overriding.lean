import Stencil.Context
import Stencil.Proofs.Value.Exact

/-! What the names of a context are bound to. Variables are put among the entries of the data before
the keys become texts, so a variable gives way to an entry behind its place that has another key of
the same text. -/
namespace Stencil
open Outcome

namespace Host
variable {entries : List (Host × Host)} {key x : Host} {name other : String}

def lastNamed (entries : List (Host × Host)) (name : String) : Option Host :=
  (entries.reverse.find? fun e => e.1.keyText = name).map Prod.snd

def behind (name : String) : List (Host × Host) → List (Host × Host)
  | [] => []
  | (key, _) :: rest => if key.same (.string name) then rest else behind name rest

theorem same_string_iff : key.same (.string name) = true ↔ key = .string name := by
  cases key <;> simp [same, number?]

theorem lastNamed_cons (e : Host × Host) (rest : List (Host × Host)) (name : String) :
    lastNamed (e :: rest) name =
      (lastNamed rest name).or (if e.1.keyText = name then some e.2 else none) := by
  unfold lastNamed
  rw [List.reverse_cons, List.find?_append]
  cases rest.reverse.find? fun e => e.1.keyText = name with
  | some found => rfl
  | none => by_cases named : e.1.keyText = name <;> simp [named]

theorem lastNamed_eq_none_iff : lastNamed entries name = none ↔
    ∀ e ∈ entries, e.1.keyText ≠ name := by
  simp [lastNamed]

theorem lastNamed_insert_of_ne (different : other ≠ name) :
    lastNamed (insert entries (.string name) x) other = lastNamed entries other := by
  have unnamed : ¬(Host.string name).keyText = other := Ne.symm different
  induction entries with
  | nil => rw [insert, lastNamed_cons, if_neg unnamed, Option.or_none]
  | cons e rest ih =>
    obtain ⟨key, y⟩ := e
    rw [insert]
    split
    · rename_i own
      obtain rfl := same_string_iff.1 own
      rw [lastNamed_cons, lastNamed_cons, if_neg unnamed, if_neg unnamed]
    · rw [lastNamed_cons, lastNamed_cons, ih]

/-- A variable takes the place of the entry with its key, and what stands behind that place stays
there. -/
theorem lastNamed_insert_self (entries : List (Host × Host)) (name : String) (x : Host) :
    lastNamed (insert entries (.string name) x) name =
      (lastNamed (behind name entries) name).or (some x) := by
  have named : (Host.string name).keyText = name := rfl
  induction entries with
  | nil =>
    rw [insert, lastNamed_cons, if_pos named]
    rfl
  | cons e rest ih =>
    obtain ⟨key, y⟩ := e
    rw [insert, behind]
    split
    · rename_i own
      obtain rfl := same_string_iff.1 own
      rw [lastNamed_cons, if_pos named]
    · rw [lastNamed_cons, ih, Option.or_assoc, Option.some_or]

theorem lastNamed_behind_insert (entries : List (Host × Host)) (name other : String) (x : Host) :
    lastNamed (behind other (insert entries (.string name) x)) other =
      lastNamed (behind other entries) other := by
  induction entries with
  | nil =>
    rw [insert, behind, behind]
    split <;> rfl
  | cons e rest ih =>
    obtain ⟨key, y⟩ := e
    rw [insert]
    by_cases own : key.same (.string name) = true
    · rw [if_pos own, behind, behind]
    · rw [if_neg own, behind, behind]
      split
      · rename_i its
        obtain rfl := same_string_iff.1 its
        have different : other ≠ name := fun equal => own (same_string_iff.2 (congrArg _ equal))
        exact lastNamed_insert_of_ne different
      · exact ih

def overlay (entries : List (Host × Host)) (named : List (String × Host)) : List (Host × Host) :=
  named.foldl (fun done v => insert done (.string v.1) v.2) entries

variable {named : List (String × Host)}

theorem overlay_cons (v : String × Host) (rest : List (String × Host)) :
    overlay entries (v :: rest) = overlay (insert entries (.string v.1) v.2) rest := rfl

theorem lookup_reverse_cons (v : String × Host) (rest : List (String × Host)) (name : String) :
    (v :: rest).reverse.lookup name =
      (rest.reverse.lookup name).or (if name = v.1 then some v.2 else none) := by
  rw [List.reverse_cons, List.lookup_append, List.lookup_cons]
  by_cases same : name = v.1
  · rw [if_pos same, beq_iff_eq.2 same]
  · rw [if_neg same, beq_false_of_ne same]
    rfl

theorem lastNamed_overlay_of_none (h : named.reverse.lookup name = none) :
    lastNamed (overlay entries named) name = lastNamed entries name := by
  induction named generalizing entries with
  | nil => rfl
  | cons v rest ih =>
    rw [lookup_reverse_cons, Option.or_eq_none_iff] at h
    have different : name ≠ v.1 := by simpa using h.2
    rw [overlay_cons, ih h.1, lastNamed_insert_of_ne different]

theorem lastNamed_overlay_of_some (h : named.reverse.lookup name = some x) :
    lastNamed (overlay entries named) name =
      (lastNamed (behind name entries) name).or (some x) := by
  induction named generalizing entries with
  | nil => cases h
  | cons v rest ih =>
    rw [lookup_reverse_cons] at h
    rw [overlay_cons]
    cases later : rest.reverse.lookup name with
    | some y =>
      rw [later, Option.some_or] at h
      obtain rfl := Option.some.inj h
      -- a later variable of the same name finds the same entries behind the place
      rw [ih later, lastNamed_behind_insert]
    | none =>
      rw [later, Option.none_or] at h
      obtain ⟨rfl, rfl⟩ : name = v.1 ∧ v.2 = x := by simpa using h
      rw [lastNamed_overlay_of_none later, lastNamed_insert_self]

/-- Of entries that are converted one by one, the first with a key is converted to the first with
its text. -/
theorem rel_find?_of_enters {pairs : List (String × Value)} (h : List.Forall₂ Enters entries pairs)
    (name : String) :
    Option.Rel (fun y v => y.toValue = .ok v)
      ((entries.find? fun e => e.1.keyText = name).map Prod.snd) (pairs.lookup name) := by
  induction h with
  | nil => exact .none
  | @cons e p _ _ enters _ ih =>
    obtain ⟨key, y⟩ := e
    obtain ⟨text, v⟩ := p
    obtain ⟨written, converted⟩ := enters
    obtain rfl : key.keyText = text := by
      unfold keyName at written
      split at written
      · exact Except.ok.inj written
      · cases written
    by_cases same : key.keyText = name
    · rw [List.find?_cons_of_pos (by simpa using same), List.lookup_cons, beq_iff_eq.2 same.symm]
      exact .some converted
    · rw [List.find?_cons_of_neg (by simpa using same), List.lookup_cons,
        beq_false_of_ne (Ne.symm same)]
      exact ih

end Host

namespace Context
open Host
variable {data : Option Host} {named : List (String × Host)} {entries : List (Host × Host)}
  {ctx : List (String × Value)}

/-- A name is bound to what the last entry holds whose key has it for its text. -/
theorem rel_lookup_of_build (given : entriesOf data = .ok entries)
    (built : build data named = .ok ctx) (name : String) :
    Option.Rel (fun y v => y.toValue = .ok v) (lastNamed (overlay entries named) name)
      (ctx.lookup name) := by
  have converted : toEntries [] (overlay entries named) = .ok ctx := by
    rw [build, bindings, given] at built
    exact built
  obtain ⟨pairs, each, rfl⟩ := toEntries_eq_ok_iff.1 converted
  rw [Value.lookup_insertAll, List.lookup_nil, Option.or_none]
  exact rel_find?_of_enters (List.forall₂_reverse_iff.2 each) name

theorem exists_of_lastNamed (given : entriesOf data = .ok entries)
    (built : build data named = .ok ctx) {name : String} {y : Host}
    (h : lastNamed (overlay entries named) name = some y) :
    ∃ v, y.toValue = .ok v ∧ ctx.lookup name = some v := by
  have related := rel_lookup_of_build given built name
  rw [h] at related
  generalize ctx.lookup name = bound at related ⊢
  cases related with
  | some converted => exact ⟨_, converted, rfl⟩

theorem isSome_lookup_of_build (given : entriesOf data = .ok entries)
    (built : build data named = .ok ctx) (name : String) :
    (ctx.lookup name).isSome = (lastNamed (overlay entries named) name).isSome := by
  have related := rel_lookup_of_build given built name
  generalize lastNamed (overlay entries named) name = found, ctx.lookup name = bound at related ⊢
  cases related <;> rfl

theorem isSome_lookup_iff {α : Type} {bound : List (String × α)} {name : String} :
    (bound.lookup name).isSome = true ↔ name ∈ bound.map Prod.fst := by
  rw [List.lookup_isSome_iff, List.mem_map]
  exact exists_congr fun p => and_congr_right fun _ => by rw [beq_iff_eq, eq_comm]

/-- A variable is bound to its own value, unless an entry of the data has its name for the text of
its key and stands behind the one whose key is that text itself: then the last such entry is bound.
Every other name is bound to the last entry of the data whose key has that text, and no further
names are bound. -/
theorem build_overriding (given : entriesOf data = .ok entries)
    (built : build data named = .ok ctx) :
    (∀ name x, named.reverse.lookup name = some x →
      (∀ e ∈ behind name entries, e.1.keyText ≠ name) →
      ∃ v, x.toValue = .ok v ∧ ctx.lookup name = some v) ∧
    (∀ name x y, named.reverse.lookup name = some x →
      lastNamed (behind name entries) name = some y →
      ∃ v, y.toValue = .ok v ∧ ctx.lookup name = some v) ∧
    (∀ name y, name ∉ named.map Prod.fst → lastNamed entries name = some y →
      ∃ v, y.toValue = .ok v ∧ ctx.lookup name = some v) ∧
    (∀ name, name ∈ ctx.map Prod.fst ↔
      name ∈ named.map Prod.fst ∨ ∃ e ∈ entries, e.1.keyText = name) ∧
    (ctx.map Prod.fst).Nodup := by
  have unset (name : String) : named.reverse.lookup name = none ↔ name ∉ named.map Prod.fst := by
    rw [← Option.not_isSome_iff_eq_none, isSome_lookup_iff, List.map_reverse, List.mem_reverse]
  refine ⟨fun name x its clear => ?_, fun name x y its later => ?_, fun name y other last => ?_,
    fun name => ?_, ?_⟩
  · refine exists_of_lastNamed given built ?_
    rw [lastNamed_overlay_of_some its, lastNamed_eq_none_iff.2 clear, Option.none_or]
  · refine exists_of_lastNamed given built ?_
    rw [lastNamed_overlay_of_some its, later, Option.some_or]
  · refine exists_of_lastNamed given built ?_
    rw [lastNamed_overlay_of_none ((unset name).2 other), last]
  · rw [← isSome_lookup_iff, isSome_lookup_of_build given built]
    cases its : named.reverse.lookup name with
    | some x =>
      have among : name ∈ named.map Prod.fst := by
        by_contra other
        rw [(unset name).2 other] at its
        cases its
      rw [lastNamed_overlay_of_some its]
      simp [among]
    | none =>
      rw [lastNamed_overlay_of_none its]
      simp only [(unset name).1 its, false_or, lastNamed, Option.isSome_map, List.find?_isSome,
        List.mem_reverse, decide_eq_true_eq]
  · exact (Value.sound_mapping_iff.1 (wellFormed_of_build built)).1

theorem build_overriding_null :
    ∃ ctx,
      build (some (.provider ⟨"Page", "Page()"⟩ (.mapping [(.string "None", .string "a"),
        (.null, .string "b"), (.bool true, .string "c")])))
        [("None", .string "d"), ("True", .string "e")] = .ok ctx ∧
      (∃ v, (Host.string "b").toValue = .ok v ∧ ctx.lookup "None" = some v) ∧
      ∃ v, (Host.string "e").toValue = .ok v ∧ ctx.lookup "True" = some v := by
  have given :
      entriesOf (some (.provider ⟨"Page", "Page()"⟩ (.mapping [(.string "None", .string "a"),
        (.null, .string "b"), (.bool true, .string "c")]))) =
        .ok [(.string "None", .string "a"), (.null, .string "b"), (.bool true, .string "c")] := rfl
  have built :
      build (some (.provider ⟨"Page", "Page()"⟩ (.mapping [(.string "None", .string "a"),
        (.null, .string "b"), (.bool true, .string "c")])))
        [("None", .string "d"), ("True", .string "e")] =
        .ok [("None", .string "b"), ("True", .string "e")] := rfl
  obtain ⟨own, later, -⟩ := build_overriding given built
  refine ⟨_, built, later "None" (.string "d") (.string "b") rfl rfl,
    own "True" (.string "e") rfl ?_⟩
  simp [behind, same_string_iff]

/-- Two keys of one text, the one that is no text behind the other: a variable cannot override the
second. -/
theorem variable_gives_way :
    ¬ ∀ (data : Option Host) (named : List (String × Host)) (ctx : List (String × Value)),
      build data named = .ok ctx → ∀ name x, named.lookup name = some x →
        ∃ v, x.toValue = .ok v ∧ ctx.lookup name = some v := by
  intro claimed
  have built : build (some (.mapping [(.string "None", .string "a"), (.null, .string "b")]))
      [("None", .string "c")] = .ok [("None", .string "b")] := rfl
  obtain ⟨v, converted, bound⟩ := claimed _ _ _ built "None" (.string "c") rfl
  obtain rfl : Value.string "c" = v := Except.ok.inj converted
  simp at bound

end Context
end Stencil
