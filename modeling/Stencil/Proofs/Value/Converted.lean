import Stencil.Context
import Stencil.Proofs.Value.Sound

/-! Host data that can be converted becomes well-formed values: integers are checked on the way, and
entries whose keys come to the same text share one place. So do the fields of records when they are
read. -/
namespace Stencil
open Outcome

namespace Value
variable {R : Record → Prop} {entries : List (String × Value)} {key : String} {value : Value}

theorem mem_keys_insert {name : String} :
    name ∈ (insert entries key value).map Prod.fst ↔ name = key ∨ name ∈ entries.map Prod.fst := by
  induction entries with
  | nil => simp [insert]
  | cons entry rest ih =>
    obtain ⟨k, v⟩ := entry
    unfold insert
    by_cases same : k = key
    · simp [same]
    · rw [if_neg same, List.map_cons, List.mem_cons, ih, List.map_cons, List.mem_cons]
      tauto

theorem nodup_keys_insert (h : (entries.map Prod.fst).Nodup) :
    ((insert entries key value).map Prod.fst).Nodup := by
  induction entries with
  | nil => simp [insert]
  | cons entry rest ih =>
    obtain ⟨k, v⟩ := entry
    obtain ⟨fresh, distinct⟩ := List.nodup_cons.1 h
    unfold insert
    by_cases same : k = key
    · rw [if_pos same]
      exact h
    · rw [if_neg same]
      refine List.nodup_cons.2 ⟨?_, ih distinct⟩
      rw [mem_keys_insert]
      exact not_or.2 ⟨same, fresh⟩

theorem forall_insert {P : Value → Prop} (h : ∀ e ∈ entries, P e.2) (hv : P value) :
    ∀ e ∈ insert entries key value, P e.2 := by
  induction entries with
  | nil => simpa [insert] using hv
  | cons entry rest ih =>
    obtain ⟨k, v⟩ := entry
    obtain ⟨first, others⟩ := List.forall_mem_cons.1 h
    unfold insert
    by_cases same : k = key
    · rw [if_pos same]
      exact List.forall_mem_cons.2 ⟨hv, others⟩
    · rw [if_neg same]
      exact List.forall_mem_cons.2 ⟨first, ih others⟩

/-- One more entry, of a sound value. -/
theorem Sound.insert (h : Sound R (.mapping entries)) (hv : Sound R value) :
    Sound R (.mapping (insert entries key value)) := by
  obtain ⟨distinct, sound⟩ := sound_mapping_iff.1 h
  exact .mapping (nodup_keys_insert distinct) (forall_insert sound hv)

theorem sound_strings (names : List String) : Sound R (.list (names.map .string)) :=
  .list (List.forall_mem_map.2 fun name _ => .string name)

end Value

namespace Host
open Value

mutual

theorem toValue_meets (x : Host) : Meets WellFormed (fun _ => True) x.toValue := by
  cases x with
  | null => exact Sound.null
  | bool b => exact Sound.bool b
  | float x => exact Sound.float x
  | string s => exact Sound.string s
  | record r => exact Sound.record trivial
  | date d => exact Sound.string _
  | datetime t => exact Sound.string _
  | uuid u => exact Sound.string _
  | provider | method | unsupported => exact trivial
  | int n =>
    rw [toValue, checkInteger]
    by_cases fits : Integer.fits n = true
    · rw [if_pos fits]
      exact Sound.int fits
    · rw [if_neg fits]
      exact trivial
  | decimal d =>
    rw [toValue]
    split
    · exact Sound.float _
    · exact trivial
  | pair a b =>
    exact (toValue_meets a).bind fun _ first => (toValue_meets b).bind fun _ second =>
      Sound.pair first second
  | mapping entries =>
    have none : WellFormed (.mapping []) := .mapping List.nodup_nil (by simp)
    exact (toEntries_meets none entries).bind fun _ converted => converted
  | list items => exact (toValues_meets items).bind fun _ converted => Sound.list converted
  | tuple items => exact (toValues_meets items).bind fun _ converted => Sound.list converted
  | standIn name value => exact toValue_meets value

theorem toValues_meets (xs : List Host) :
    Meets (fun vs => ∀ v ∈ vs, WellFormed v) (fun _ => True) (toValues xs) := by
  cases xs with
  | nil => exact List.forall_mem_nil _
  | cons x rest =>
    refine (toValue_meets x).bind fun first hfirst => ?_
    refine (toValues_meets rest).bind fun others hothers => ?_
    exact List.forall_mem_cons.2 ⟨hfirst, hothers⟩

theorem toEntries_meets {done : List (String × Value)} (h : WellFormed (.mapping done))
    (entries : List (Host × Host)) :
    Meets (fun all => WellFormed (.mapping all)) (fun _ => True) (toEntries done entries) := by
  cases entries with
  | nil => exact h
  | cons entry rest =>
    obtain ⟨key, x⟩ := entry
    refine (meets_any (keyName key)).bind fun name _ => ?_
    exact (toValue_meets x).bind fun value hvalue => toEntries_meets (h.insert hvalue) rest

end

end Host

/-- The names that data brings stand for well-formed values. -/
theorem Context.build_meets (data : Option Host) (named : List (String × Host)) :
    Meets (fun scope : Scope => scope.Sound fun _ => True) (fun _ => True) (build data named) := by
  refine (meets_any (bindings data named)).bind fun entries _ => ?_
  have none : Value.WellFormed (.mapping []) := .mapping List.nodup_nil (by simp)
  exact (Host.toEntries_meets none entries).imp (fun _ h => (Value.sound_mapping_iff.1 h).2)
    fun _ h => h

namespace Record
open Value

theorem wrap_meets (site : Site) (related : Related) :
    Meets WellFormed (fun _ => True) (wrap site related) := by
  unfold wrap
  split
  · exact Sound.null
  · exact Sound.record trivial
  · refine Sound.list fun v hv => ?_
    obtain ⟨i, _, rfl⟩ := List.mem_mapIdx.1 hv
    exact .record trivial
  · exact Sound.mapping List.nodup_nil (by simp)
  · exact trivial

theorem builtin_meets (typeName : String) (allowed : Option (List String)) (name : String) :
    Meets WellFormed (fun _ => True) (builtin typeName allowed name) := by
  unfold builtin
  split
  · exact sound_strings _
  · split
    · exact trivial
    · exact trivial

/-- A field of a record holds a well-formed value. -/
theorem field?_meets (site : Site) (r : Record) (name : String) :
    Meets (fun found => ∀ v ∈ found, WellFormed v) (fun _ => True) (r.field? site name) := by
  have shown {x : Except RenderFault Value} (h : Meets WellFormed (fun _ => True) x) :
      Meets (fun found => ∀ v ∈ found, WellFormed v) (fun _ => True) (x.map some) :=
    h.map fun v hv => by simpa using hv
  have hidden : Meets (ε := RenderFault) (fun found : Option Value => ∀ v ∈ found, WellFormed v)
      (fun _ => True) (.ok none) := by simp
  unfold field?
  split
  · split
    · exact shown (Host.toValue_meets _)
    · refine (meets_any (isVisible _ _ _ name)).bind fun visible _ => ?_
      repeat' split
      · exact shown (Host.toValue_meets _)
      · exact shown (builtin_meets _ _ _)
      · exact hidden
  · split
    · exact shown (Host.toValue_meets _)
    · exact hidden
  · exact hidden
  · repeat' split
    · exact shown (Host.toValue_meets _)
    · exact shown (wrap_meets _ _)
    · exact hidden
    · exact hidden

/-- Records of a sort, whose fields hold sound values when they are read; what else comes of it is a
fault of a sort. -/
structure Readable (R : Record → Prop) (F : RenderFault → Prop) : Prop where
  reported : ∀ fault : RenderFault, fault.Reported → F fault
  field : ∀ r, R r →
    ∀ site name, Meets (fun found => ∀ v ∈ found, Value.Sound R v) F (r.field? site name)

theorem readable_all : Readable (fun _ => True) fun _ => True :=
  ⟨fun _ _ => trivial, fun r _ site name => field?_meets site r name⟩

end Record

end Stencil
