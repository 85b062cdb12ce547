import Stencil.Proofs.Value.Converted

/-! Conversion, exactly: host data is refused just where some part of it is, every entry of a
mapping stands at the place of the first of its key with the value of the last, and what came out
once is left alone. -/
namespace Stencil
open Outcome

namespace Value
variable {entries pairs : List (String × Value)} {key name : String} {value : Value}

def insertAll (entries pairs : List (String × Value)) : List (String × Value) :=
  pairs.foldl (fun done p => insert done p.1 p.2) entries

theorem insertAll_cons (p : String × Value) (rest : List (String × Value)) :
    insertAll entries (p :: rest) = insertAll (insert entries p.1 p.2) rest := rfl

theorem keys_insert_of_mem (h : key ∈ entries.map Prod.fst) :
    (insert entries key value).map Prod.fst = entries.map Prod.fst := by
  induction entries with
  | nil => cases h
  | cons entry rest ih =>
    obtain ⟨k, v⟩ := entry
    unfold insert
    by_cases same : k = key
    · rw [if_pos same]
      rfl
    · have later : key ∈ rest.map Prod.fst := (List.mem_cons.1 h).resolve_left (Ne.symm same)
      rw [if_neg same, List.map_cons, List.map_cons, ih later]

theorem insert_of_not_mem (h : key ∉ entries.map Prod.fst) :
    insert entries key value = entries ++ [(key, value)] := by
  induction entries with
  | nil => rfl
  | cons entry rest ih =>
    obtain ⟨k, v⟩ := entry
    obtain ⟨other, later⟩ := not_or.1 (List.mem_cons.not.1 h)
    rw [insert, if_neg (Ne.symm other), ih later, List.cons_append]

/-- New keys follow those that are there, in the order of their first appearance. -/
theorem keys_insertAll (entries pairs : List (String × Value)) :
    (insertAll entries pairs).map Prod.fst = entries.map Prod.fst ++
      ((pairs.map Prod.fst).filter fun name => name ∉ entries.map Prod.fst).eraseDups := by
  induction pairs generalizing entries with
  | nil => simp [insertAll]
  | cons p rest ih =>
    rw [insertAll_cons, ih, List.map_cons]
    by_cases known : p.1 ∈ entries.map Prod.fst
    · rw [keys_insert_of_mem known, List.filter_cons_of_neg (by simpa using known)]
    · -- from here on the key is known, so that its later entries are passed over
      have later :
          (rest.map Prod.fst).filter (fun name => name ∉ (entries ++ [(p.1, p.2)]).map Prod.fst) =
          ((rest.map Prod.fst).filter fun name => name ∉ entries.map Prod.fst).filter fun name =>
            !name == p.1 := by
        rw [List.filter_filter]
        refine List.filter_congr fun name _ => ?_
        rw [List.map_append, Bool.eq_iff_iff]
        simp only [decide_eq_true_eq, Bool.and_eq_true, List.mem_append, List.map_cons,
          List.map_nil, List.mem_singleton, not_or, Bool.not_eq_true', beq_eq_false_iff_ne]
        exact and_comm
      rw [insert_of_not_mem known, later, List.filter_cons_of_pos (by simpa using known),
        List.eraseDups_cons, List.map_append, List.append_assoc]
      rfl

theorem lookup_insertAll (entries pairs : List (String × Value)) (name : String) :
    (insertAll entries pairs).lookup name =
      (pairs.reverse.lookup name).or (entries.lookup name) := by
  induction pairs generalizing entries with
  | nil => rfl
  | cons p rest ih =>
    obtain ⟨k, v⟩ := p
    rw [insertAll_cons, ih, lookup_insert, List.reverse_cons, List.lookup_append, Option.or_assoc,
      List.lookup_cons]
    cases same : name == k with
    | true => rw [if_pos (by simpa using same), Option.some_or]
    | false => rw [if_neg (by simpa using same), List.lookup_nil, Option.none_or]

theorem insertAll_of_nodup (h : ((entries ++ pairs).map Prod.fst).Nodup) :
    insertAll entries pairs = entries ++ pairs := by
  induction pairs generalizing entries with
  | nil => exact (List.append_nil _).symm
  | cons p rest ih =>
    have split : entries ++ p :: rest = entries ++ [p] ++ rest := by simp
    have fresh : p.1 ∉ entries.map Prod.fst := by
      intro known
      rw [List.map_append, List.nodup_append] at h
      exact h.2.2 _ known _ (List.mem_cons_self ..) rfl
    rw [insertAll_cons, insert_of_not_mem fresh, split]
    exact ih (split ▸ h)

end Value

namespace Host
open Value

section Steps

theorem toValues_eq_ok_iff {items : List Host} {vs : List Value} :
    toValues items = .ok vs ↔ List.Forall₂ (fun x v => x.toValue = .ok v) items vs := by
  induction items generalizing vs with
  | nil =>
    rw [toValues, List.forall₂_nil_left_iff]
    exact ⟨fun h => (Except.ok.inj h).symm, fun h => congrArg _ h.symm⟩
  | cons x rest ih =>
    simp only [toValues, bind_eq_ok_iff, pure_eq_ok, ih, List.forall₂_cons_left_iff]
    constructor
    · rintro ⟨v, first, vs, others, made⟩
      exact ⟨v, vs, first, others, (Except.ok.inj made).symm⟩
    · rintro ⟨v, vs, first, others, rfl⟩
      exact ⟨v, first, vs, others, rfl⟩

def Enters (e : Host × Host) (p : String × Value) : Prop :=
  e.1.keyName = .ok p.1 ∧ e.2.toValue = .ok p.2

/-- Entries are converted one by one and put in. -/
theorem toEntries_eq_ok_iff {entries : List (Host × Host)} {done es : List (String × Value)} :
    toEntries done entries = .ok es ↔
      ∃ pairs, List.Forall₂ Enters entries pairs ∧ es = insertAll done pairs := by
  induction entries generalizing done with
  | nil =>
    rw [toEntries]
    simp only [List.forall₂_nil_left_iff, exists_eq_left]
    exact ⟨fun h => (Except.ok.inj h).symm, fun h => congrArg _ h.symm⟩
  | cons e rest ih =>
    obtain ⟨key, x⟩ := e
    simp only [toEntries, bind_eq_ok_iff, ih, List.forall₂_cons_left_iff]
    constructor
    · rintro ⟨name, named, v, converted, pairs, others, rfl⟩
      exact ⟨(name, v) :: pairs, ⟨(name, v), pairs, ⟨named, converted⟩, others, rfl⟩, rfl⟩
    · rintro ⟨_, ⟨p, pairs, first, others, rfl⟩, rfl⟩
      exact ⟨p.1, first.1, p.2, first.2, pairs, others, rfl⟩

end Steps

section Parts

/-- What is handed over with some host data. What a record holds is not. -/
inductive Part (x : Host) : Host → Prop where
  | self : Part x x
  | list {y : Host} {items : List Host} : y ∈ items → Part x y → Part x (.list items)
  | tuple {y : Host} {items : List Host} : y ∈ items → Part x y → Part x (.tuple items)
  | first {a : Host} (b : Host) : Part x a → Part x (.pair a b)
  | second {b : Host} (a : Host) : Part x b → Part x (.pair a b)
  | mapping {y key : Host} {entries : List (Host × Host)} : (key, y) ∈ entries → Part x y →
      Part x (.mapping entries)
  | standIn {y : Host} (face : Face) : Part x y → Part x (.standIn face y)

inductive Refused : Host → RenderFault → Prop where
  | wide {n : Int} : Integer.fits n = false → Integer.Writable n →
      Refused (.int n) (.mismatch .integer64 (toString n) (some .conversion))
  | untold {n : Int} : ¬Integer.Writable n → Refused (.int n) .integerTooLong
  | unsupported (face : Face) :
      Refused (.unsupported face) (.mismatch .templateValue face.typeName (some .conversion))
  | provider (face : Face) (context : Host) :
      Refused (.provider face context) (.mismatch .templateValue face.typeName (some .conversion))
  | method (result : Host) :
      Refused (.method result) (.mismatch .templateValue "method" (some .conversion))
  | signaling {d : Decimal} : d.toFloat? = none → Refused (.decimal d) .signalingNaN
  | key {entries : List (Host × Host)} {key x : Host} :
      (key, x) ∈ entries → key.isWritable = false →
      Refused (.mapping entries) .integerTooLong

def Clean (x : Host) : Prop := ∀ y fault, Part y x → ¬Refused y fault

def Spoils (x : Host) (fault : RenderFault) : Prop := ∃ y, Part y x ∧ Refused y fault

variable {x y : Host}

theorem Part.trans {z : Host} (h : Part x y) (h' : Part y z) : Part x z := by
  induction h' with
  | self => exact h
  | list mem _ ih => exact .list mem ih
  | tuple mem _ ih => exact .tuple mem ih
  | first b _ ih => exact .first b ih
  | second a _ ih => exact .second a ih
  | mapping mem _ ih => exact .mapping mem ih
  | standIn name _ ih => exact .standIn name ih

theorem Clean.part (h : Clean x) (part : Part y x) : Clean y :=
  fun z fault inner => h z fault (inner.trans part)

theorem Spoils.whole {fault : RenderFault} (h : Spoils y fault) (part : Part y x) :
    Spoils x fault := by
  obtain ⟨z, inner, refused⟩ := h
  exact ⟨z, inner.trans part, refused⟩

theorem Clean.list {items : List Host} (h : ∀ x ∈ items, Clean x) : Clean (.list items) := by
  intro y fault part refused
  cases part with
  | self => cases refused
  | list mem inner => exact h _ mem y fault inner refused

theorem Clean.tuple {items : List Host} (h : ∀ x ∈ items, Clean x) : Clean (.tuple items) := by
  intro y fault part refused
  cases part with
  | self => cases refused
  | tuple mem inner => exact h _ mem y fault inner refused

theorem Clean.pair {a b : Host} (first : Clean a) (second : Clean b) : Clean (.pair a b) := by
  intro y fault part refused
  cases part with
  | self => cases refused
  | first _ inner => exact first y fault inner refused
  | second _ inner => exact second y fault inner refused

theorem Clean.mapping {entries : List (Host × Host)}
    (h : ∀ e ∈ entries, e.1.isWritable = true ∧ Clean e.2) :
    Clean (.mapping entries) := by
  intro y fault part refused
  cases part with
  | self =>
    cases refused with
    | key mem unwritable => exact absurd (h _ mem).1 (by rw [unwritable]; decide)
  | mapping mem inner => exact (h _ mem).2 y fault inner refused

theorem Clean.standIn {face : Face} (h : Clean x) : Clean (.standIn face x) := by
  intro y fault part refused
  cases part with
  | self => cases refused
  | standIn _ inner => exact h y fault inner refused

theorem keyName_meets (key : Host) :
    Meets (fun _ => key.isWritable = true)
      (fun fault => key.isWritable = false ∧ fault = .integerTooLong)
      key.keyName := by
  unfold keyName
  by_cases writable : key.isWritable = true
  · rw [if_pos writable]
    exact writable
  · rw [if_neg writable]
    exact ⟨by simpa using writable, rfl⟩

theorem int_clean (n : Int) :
    Meets (fun _ => Clean (.int n)) (Spoils (.int n)) (Host.int n).toValue := by
  rw [toValue, checkInteger]
  by_cases fits : Integer.fits n = true
  · rw [if_pos fits]
    intro y fault part refused
    cases part
    cases refused with
    | wide unfit _ => exact absurd fits (by rw [unfit]; decide)
    | untold long => exact long (Integer.writable_of_fits fits)
  · rw [if_neg fits]
    by_cases writable : Integer.Writable n
    · rw [writable.tooWide]
      exact ⟨_, .self, .wide (by simpa using fits) writable⟩
    · rw [Integer.tooWide_of_not_writable writable]
      exact ⟨_, .self, .untold writable⟩

mutual

/-- Either no part is refused, or the fault is that of a part. -/
theorem toValue_clean (x : Host) : Meets (fun _ => Clean x) (Spoils x) x.toValue := by
  cases x with
  | null | bool | float | string | record | date | datetime | uuid =>
    intro y fault part refused
    cases part
    cases refused
  | int n => exact int_clean n
  | decimal d =>
    rw [toValue]
    split
    · rename_i converted
      intro y fault part refused
      cases part
      cases refused with
      | signaling none => exact absurd none (by rw [converted]; simp)
    · rename_i none
      exact ⟨_, .self, .signaling none⟩
  | provider name context => exact ⟨_, .self, .provider name context⟩
  | method result => exact ⟨_, .self, .method result⟩
  | unsupported name => exact ⟨_, .self, .unsupported name⟩
  | pair a b =>
    refine ((toValue_clean a).imp_error fun _ bad => bad.whole (.first b .self)).bind
      fun _ first => ?_
    refine ((toValue_clean b).imp_error fun _ bad => bad.whole (.second a .self)).bind
      fun _ second => ?_
    exact first.pair second
  | mapping entries =>
    refine ((toEntries_clean [] entries).imp_error fun fault bad => ?_).bind fun _ clean =>
      Clean.mapping clean
    obtain ⟨e, mem, ⟨unwritable, rfl⟩ | spoils⟩ := bad
    · exact ⟨_, .self, .key mem unwritable⟩
    · exact spoils.whole (.mapping mem .self)
  | list items =>
    refine ((toValues_clean items).imp_error fun fault bad => ?_).bind fun _ clean =>
      Clean.list clean
    obtain ⟨y, mem, spoils⟩ := bad
    exact spoils.whole (.list mem .self)
  | tuple items =>
    refine ((toValues_clean items).imp_error fun fault bad => ?_).bind fun _ clean =>
      Clean.tuple clean
    obtain ⟨y, mem, spoils⟩ := bad
    exact spoils.whole (.tuple mem .self)
  | standIn name value =>
    exact ((toValue_clean value).imp (fun _ clean => clean.standIn) fun _ bad =>
      bad.whole (.standIn name .self))

theorem toValues_clean (items : List Host) :
    Meets (fun _ => ∀ x ∈ items, Clean x) (fun fault => ∃ x ∈ items, Spoils x fault)
      (toValues items) := by
  cases items with
  | nil => exact List.forall_mem_nil _
  | cons x rest =>
    refine ((toValue_clean x).imp_error fun _ bad => ⟨x, List.mem_cons_self .., bad⟩).bind
      fun _ first => ?_
    refine ((toValues_clean rest).imp_error fun fault bad => ?_).bind fun _ others => ?_
    · obtain ⟨y, mem, spoils⟩ := bad
      exact ⟨y, List.mem_cons_of_mem x mem, spoils⟩
    · exact List.forall_mem_cons.2 ⟨first, others⟩

theorem toEntries_clean (done : List (String × Value)) (entries : List (Host × Host)) :
    Meets (fun _ => ∀ e ∈ entries, e.1.isWritable = true ∧ Clean e.2)
      (fun fault => ∃ e ∈ entries, (e.1.isWritable = false ∧ fault = .integerTooLong) ∨
        Spoils e.2 fault)
      (toEntries done entries) := by
  cases entries with
  | nil => exact List.forall_mem_nil _
  | cons entry rest =>
    obtain ⟨key, x⟩ := entry
    have here := List.mem_cons_self (a := (key, x)) (l := rest)
    refine ((keyName_meets key).imp_error fun _ bad => ⟨_, here, .inl bad⟩).bind
      fun name writable => ?_
    refine ((toValue_clean x).imp_error fun _ bad => ⟨_, here, .inr bad⟩).bind fun value first => ?_
    refine (toEntries_clean _ rest).imp (fun _ others => ?_) fun fault bad => ?_
    · exact List.forall_mem_cons.2 ⟨⟨writable, first⟩, others⟩
    · obtain ⟨e, mem, spoils⟩ := bad
      exact ⟨e, List.mem_cons_of_mem _ mem, spoils⟩

end

theorem exists_value_iff : (∃ v, x.toValue = .ok v) ↔ Clean x := by
  have outcome := toValue_clean x
  cases converted : x.toValue with
  | ok v =>
    rw [converted] at outcome
    exact ⟨fun _ => outcome, fun _ => ⟨v, rfl⟩⟩
  | error fault =>
    rw [converted] at outcome
    obtain ⟨y, part, refused⟩ := outcome
    constructor
    · rintro ⟨v, other⟩
      cases other
    · exact fun clean => absurd refused (clean y fault part)

/-- A mapping inside of what is converted is converted, too. -/
theorem entries_of_part {v : Value} {entries : List (Host × Host)} (h : x.toValue = .ok v)
    (part : Part (.mapping entries) x) :
    ∃ es pairs, (Host.mapping entries).toValue = .ok (.mapping es) ∧
      List.Forall₂ Enters entries pairs ∧
      es.map Prod.fst = (pairs.map Prod.fst).eraseDups ∧
      ∀ name, es.lookup name = pairs.reverse.lookup name := by
  obtain ⟨w, converted⟩ := exists_value_iff.2 ((exists_value_iff.1 ⟨v, h⟩).part part)
  obtain ⟨es, entered, rfl⟩ : ∃ es, toEntries [] entries = .ok es ∧ w = .mapping es := by
    rw [toValue, bind_eq_ok_iff] at converted
    obtain ⟨es, entered, made⟩ := converted
    exact ⟨es, entered, (Except.ok.inj made).symm⟩
  obtain ⟨pairs, each, rfl⟩ := toEntries_eq_ok_iff.1 entered
  refine ⟨_, pairs, converted, each, ?_, fun name => ?_⟩
  · rw [keys_insertAll]
    simp
  · rw [lookup_insertAll, List.lookup_nil, Option.or_none]

end Parts

end Host

section Again

mutual

def Value.asHost : Value → Host
  | .null => .null
  | .bool b => .bool b
  | .int n => .int n
  | .float x => .float x
  | .string s => .string s
  | .list items => .tuple (Value.allAsHost items)
  | .pair a b => .pair (Value.asHost a) (Value.asHost b)
  | .mapping entries => .mapping (Value.entriesAsHost entries)
  | .record r => .record r

def Value.allAsHost : List Value → List Host
  | [] => []
  | v :: rest => Value.asHost v :: Value.allAsHost rest

def Value.entriesAsHost : List (String × Value) → List (Host × Host)
  | [] => []
  | (key, v) :: rest => (.string key, Value.asHost v) :: Value.entriesAsHost rest

end

namespace Value

theorem toEntries_asHost {entries : List (String × Value)} (distinct : (entries.map Prod.fst).Nodup)
    (each : List.Forall₂ Host.Enters (entriesAsHost entries) entries) :
    Host.toEntries [] (entriesAsHost entries) = .ok entries := by
  have same : insertAll [] entries = [] ++ entries := insertAll_of_nodup distinct
  exact Host.toEntries_eq_ok_iff.2 ⟨entries, each, same.symm⟩

mutual

/-- A well-formed value is converted to itself. -/
theorem toValue_asHost {v : Value} (h : WellFormed v) : v.asHost.toValue = .ok v := by
  cases h with
  | null | bool | float | string | record => rfl
  | int fits =>
    rw [asHost, Host.toValue, checkInteger, if_pos fits]
    rfl
  | list items =>
    have converted := Host.toValues_eq_ok_iff.2 (toValue_allAsHost items)
    rw [asHost, Host.toValue, converted]
    rfl
  | pair first second =>
    rw [asHost, Host.toValue, toValue_asHost first, ok_bind, toValue_asHost second]
    rfl
  | mapping distinct values =>
    rw [asHost, Host.toValue, toEntries_asHost distinct (toValue_entriesAsHost values)]
    rfl

theorem toValue_allAsHost {items : List Value} (h : ∀ v ∈ items, WellFormed v) :
    List.Forall₂ (fun x v => Host.toValue x = .ok v) (allAsHost items) items := by
  cases items with
  | nil => exact .nil
  | cons v rest =>
    obtain ⟨first, others⟩ := List.forall_mem_cons.1 h
    exact .cons (toValue_asHost first) (toValue_allAsHost others)

theorem toValue_entriesAsHost {entries : List (String × Value)}
    (h : ∀ e ∈ entries, WellFormed e.2) :
    List.Forall₂ Host.Enters (entriesAsHost entries) entries := by
  cases entries with
  | nil => exact .nil
  | cons entry rest =>
    obtain ⟨key, v⟩ := entry
    obtain ⟨first, others⟩ := List.forall_mem_cons.1 h
    exact .cons ⟨rfl, toValue_asHost first⟩ (toValue_entriesAsHost others)

end

end Value

theorem Context.wellFormed_of_build {data : Option Host} {named : List (String × Host)}
    {ctx : List (String × Value)} (h : build data named = .ok ctx) :
    Value.WellFormed (.mapping ctx) := by
  rw [build, bind_eq_ok_iff] at h
  obtain ⟨entries, _, converted⟩ := h
  have none : Value.WellFormed (.mapping []) := .mapping List.nodup_nil (by simp)
  have outcome := Host.toEntries_meets none entries
  rw [converted] at outcome
  exact outcome

/-- A context is built again out of itself. -/
theorem Context.build_asHost {data : Option Host} {named : List (String × Host)}
    {ctx : List (String × Value)} (h : build data named = .ok ctx) :
    build (some (Value.mapping ctx).asHost) [] = .ok ctx := by
  obtain ⟨distinct, values⟩ := Value.sound_mapping_iff.1 (wellFormed_of_build h)
  exact Value.toEntries_asHost distinct (Value.toValue_entriesAsHost values)

end Again

/-- Host data is converted unless some part of it is refused, and the fault is that of such a part:
a mismatch, but for integers that cannot be told and signaling NaNs. What comes out is well-formed
and comes out of itself again, alone or as a context, and in each mapping an entry stands where its
key came first and holds what came last. -/
theorem Host.toValue_outcomes (x : Host) (data : Option Host) (named : List (String × Host)) :
    ((∃ v, x.toValue = .ok v) ↔ ∀ y fault, Part y x → ¬Refused y fault) ∧
    (∀ fault, x.toValue = .error fault → ∃ y, Part y x ∧ Refused y fault) ∧
    ((∀ y, Part y x → ¬Refused y .integerTooLong ∧ ¬Refused y .signalingNaN) →
      ∀ fault, x.toValue = .error fault →
        ∃ wanted found, fault = .mismatch wanted found (some .conversion)) ∧
    (∀ v, x.toValue = .ok v → v.WellFormed ∧ v.asHost.toValue = .ok v ∧
      ∀ entries, Part (.mapping entries) x →
        ∃ es pairs, (Host.mapping entries).toValue = .ok (.mapping es) ∧
        List.Forall₂ Enters entries pairs ∧ es.map Prod.fst = (pairs.map Prod.fst).eraseDups ∧
        ∀ name, es.lookup name = pairs.reverse.lookup name) ∧
    ∀ ctx, Context.build data named = .ok ctx →
    Context.build (some (Value.mapping ctx).asHost) [] = .ok ctx := by
  have spoils {fault : RenderFault} (failed : x.toValue = .error fault) : Spoils x fault := by
    have outcome := toValue_clean x
    rw [failed] at outcome
    exact outcome
  refine ⟨exists_value_iff, fun fault failed => spoils failed, fun told fault failed => ?_,
    fun v converted => ?_, fun ctx built => Context.build_asHost built⟩
  · obtain ⟨y, part, refused⟩ := spoils failed
    cases refused with
    | wide | unsupported | provider | method => exact ⟨_, _, rfl⟩
    | untold long => exact absurd (.untold long) (told _ part).1
    | key mem unwritable => exact absurd (.key mem unwritable) (told _ part).1
    | signaling none => exact absurd (.signaling none) (told _ part).2
  · have sound := toValue_meets x
    rw [converted] at sound
    exact ⟨sound, Value.toValue_asHost sound, fun entries part => entries_of_part converted part⟩

/-- An integer that cannot be told is refused in other words than all others. -/
theorem Host.toValue_untold : (Host.int (10 ^ 4300)).toValue = .error .integerTooLong ∧
    ∀ wanted found place, RenderFault.integerTooLong ≠ .mismatch wanted found place := by
  have long : ¬Integer.Writable (10 ^ NumeralFault.digitLimit) := Integer.not_writable_pow
  have unfit : ¬Integer.fits (10 ^ NumeralFault.digitLimit) = true :=
    mt Integer.writable_of_fits long
  have refused : (Host.int (10 ^ NumeralFault.digitLimit)).toValue = .error .integerTooLong := by
    rw [toValue, checkInteger, if_neg unfit, Integer.tooWide_of_not_writable long]
    rfl
  exact ⟨refused, by simp⟩

end Stencil
