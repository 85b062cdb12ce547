import Stencil.Proofs.Value.Called
import Stencil.Proofs.Value.Equal
import Stencil.Proofs.Value.Member

/-! Views of lists and mappings: a list reversed, with its positions, joined to another one or
repeated, and a mapping as its keys, its values and its pairs. Each is a list again, and all of them
show the same items. -/
namespace Stencil
open Outcome

namespace Value
variable {xs ys : List Value} {es : List (String × Value)} {x : Value} {i n : Nat} {key : String}

/-- A value with `length` items, read by position: at each position `item` holds of what is there,
and elsewhere there is a fault. -/
structure Listing (v : Value) (length : Nat) (item : Nat → Value → Prop) : Prop where
  counted : v.Countable → ∀ site, ∀ called ∈ Operation.length.names,
    v.member site called [] = .ok (.int length)
  inside : ∀ i < length, ∃ x, v.index i = .ok x ∧ item i x
  outside : ∀ i : Int, i < 0 ∨ length ≤ i → v.index i = .error (.indexOutOfBounds i length)

section Lists

theorem index_natCast_eq_ok_iff : (list xs).index i = .ok x ↔ xs[i]? = some x := by
  have inside : ¬(i : Int) < 0 := by omega
  rw [index, atIndex, if_neg inside, Int.toNat_natCast]
  cases xs[i]? <;> simp

theorem index_outside {i : Int} (h : i < 0 ∨ xs.length ≤ i) :
    (list xs).index i = .error (.indexOutOfBounds i xs.length) := by
  have nothing : (if i < 0 then none else xs[i.toNat]?) = none := by
    split
    · rfl
    · rw [List.getElem?_eq_none]
      omega
  rw [index, atIndex, nothing]

/-- Only a position has an item. -/
theorem natCast_of_index_eq_ok {i : Int} (h : (list xs).index i = .ok x) :
    ∃ j : Nat, i = j ∧ xs[j]? = some x := by
  by_cases position : 0 ≤ i
  · obtain ⟨j, rfl⟩ := Int.eq_ofNat_of_zero_le position
    exact ⟨j, rfl, index_natCast_eq_ok_iff.1 h⟩
  · rw [index_outside (.inl (by omega))] at h
    cases h

theorem checkResult_length (called : String) (h : (n : Int) ≤ Integer.greatest) :
    Operation.checkResult called (.int n) = .ok (.int n) := by
  rw [Operation.checkResult, checkInteger, if_pos (Integer.fits_natCast h)]
  rfl

theorem listing_of_getElem? {item : Nat → Value → Prop} (length : ys.length = n)
    (h : ∀ i x, i < n → ys[i]? = some x → item i x) : (list ys).Listing n item := by
  subst length
  refine ⟨fun countable site called hc => ?_,
    fun i inside => ?_, fun i outside => index_outside outside⟩
  · rw [member_operation site (show Kind.list ∈ Operation.length.kinds by decide) hc]
    exact checkResult_length called countable
  · have found := List.getElem?_eq_getElem inside
    exact ⟨ys[i], index_natCast_eq_ok_iff.2 found, h i _ inside found⟩

theorem listing_reverse (xs : List Value) :
    (list xs.reverse).Listing xs.length fun i x =>
      (list xs).index (xs.length - 1 - i : Nat) = .ok x := by
  refine listing_of_getElem? List.length_reverse fun i x inside found => ?_
  rw [List.getElem?_reverse inside] at found
  exact index_natCast_eq_ok_iff.2 found

theorem length_pairsFrom (start : Nat) (xs : List Value) :
    (Operation.pairsFrom start xs).length = xs.length := by
  induction xs generalizing start with
  | nil => rfl
  | cons x rest ih => rw [Operation.pairsFrom, List.length_cons, ih, List.length_cons]

theorem getElem?_pairsFrom (start : Nat) (xs : List Value) (i : Nat) :
    (Operation.pairsFrom start xs)[i]? = xs[i]?.map fun x => .pair (.int (start + i : Nat)) x := by
  induction xs generalizing start i with
  | nil => rfl
  | cons x rest ih =>
    cases i with
    | zero => rfl
    | succ i =>
      rw [Operation.pairsFrom, List.getElem?_cons_succ, List.getElem?_cons_succ, ih,
        Nat.add_right_comm]
      rfl

theorem listing_pairsFrom (xs : List Value) : (list (Operation.pairsFrom 0 xs)).Listing xs.length
    fun i x => ∃ y, (list xs).index i = .ok y ∧ x = .pair (.int i) y := by
  refine listing_of_getElem? (length_pairsFrom 0 xs) fun i x _ found => ?_
  rw [getElem?_pairsFrom, Nat.zero_add] at found
  obtain ⟨y, there, rfl⟩ := Option.map_eq_some_iff.1 found
  exact ⟨y, index_natCast_eq_ok_iff.2 there, rfl⟩

theorem listing_append (xs ys : List Value) :
    (list (xs ++ ys)).Listing (xs.length + ys.length) fun i x =>
      if i < xs.length then (list xs).index i = .ok x
      else (list ys).index (i - xs.length : Nat) = .ok x := by
  refine listing_of_getElem? List.length_append fun i x _ found => ?_
  rw [List.getElem?_append] at found
  split
  · rw [if_pos ‹_›] at found
    exact index_natCast_eq_ok_iff.2 found
  · rw [if_neg ‹_›] at found
    exact index_natCast_eq_ok_iff.2 found

theorem length_repeated {α : Type} (count : Int) (xs : List α) :
    (repeated count xs).length = xs.length * count.toNat := by
  unfold repeated
  cases xs with
  | nil => simp
  | cons x rest => simp [Nat.mul_comm]

/-- Copies of a list one after another have its items again and again. -/
theorem getElem?_flatten_replicate {α : Type} {xs : List α} {count i : Nat}
    (h : i < count * xs.length) :
    (List.replicate count xs).flatten[i]? = xs[i % xs.length]? := by
  induction count generalizing i with
  | zero => omega
  | succ count ih =>
    rw [List.replicate_succ, List.flatten_cons]
    by_cases first : i < xs.length
    · rw [List.getElem?_append_left first, Nat.mod_eq_of_lt first]
    · have later : i - xs.length < count * xs.length := by
        rw [Nat.succ_mul] at h
        omega
      rw [List.getElem?_append_right (by omega), ih later, ← Nat.mod_eq_sub_mod (by omega)]

theorem listing_repeated (count : Int) (xs : List Value) :
    (list (repeated count xs)).Listing (xs.length * count.toNat)
      fun i x => (list xs).index (i % xs.length : Nat) = .ok x := by
  refine listing_of_getElem? (length_repeated count xs) fun i x inside found => ?_
  rw [Nat.mul_comm] at inside
  have items : ¬xs.isEmpty = true := fun empty => by
    rw [List.isEmpty_iff.1 empty] at inside
    simp at inside
  rw [repeated, if_neg items, getElem?_flatten_replicate inside] at found
  exact index_natCast_eq_ok_iff.2 found

end Lists

section Mappings

theorem listing_map (f : String × Value → Value) (es : List (String × Value)) :
    (list (es.map f)).Listing es.length fun i x => ∃ e, es[i]? = some e ∧ x = f e := by
  refine listing_of_getElem? (List.length_map f) fun i x _ found => ?_
  rw [List.getElem?_map] at found
  obtain ⟨e, there, rfl⟩ := Option.map_eq_some_iff.1 found
  exact ⟨e, there, rfl⟩

theorem index_map {e : String × Value} (f : String × Value → Value) (h : es[i]? = some e) :
    (list (es.map f)).index i = .ok (f e) := by
  rw [index_natCast_eq_ok_iff, List.getElem?_map, h, Option.map_some]

theorem listing_pairs (es : List (String × Value)) :
    (list (es.map fun e => .pair (.string e.1) e.2)).Listing es.length fun i x => ∃ key value,
      (list (es.map fun e => .string e.1)).index i = .ok (.string key) ∧
      (list (es.map Prod.snd)).index i = .ok value ∧ x = .pair (.string key) value := by
  obtain ⟨counted, inside, outside⟩ := listing_map (fun e => .pair (.string e.1) e.2) es
  refine ⟨counted, fun i less => ?_, outside⟩
  obtain ⟨x, read, e, there, rfl⟩ := inside i less
  exact ⟨_, read, e.1, e.2, index_map _ there, index_map _ there, rfl⟩

/-- Where a key is read off the keys, there is an entry for it. -/
theorem entry_of_key {i : Int}
    (h : (list (es.map fun e => .string e.1)).index i = .ok (.string key)) :
    ∃ (j : Nat) (value : Value), i = j ∧ es[j]? = some (key, value) := by
  obtain ⟨j, rfl, found⟩ := natCast_of_index_eq_ok h
  rw [List.getElem?_map] at found
  obtain ⟨⟨name, value⟩, there, same⟩ := Option.map_eq_some_iff.1 found
  cases same
  exact ⟨j, value, rfl, there⟩

theorem key_position_unique (distinct : (es.map Prod.fst).Nodup) {i j : Int}
    (first : (list (es.map fun e => .string e.1)).index i = .ok (.string key))
    (second : (list (es.map fun e => .string e.1)).index j = .ok (.string key)) : i = j := by
  obtain ⟨m, value, rfl, left⟩ := entry_of_key first
  obtain ⟨n, value', rfl, right⟩ := entry_of_key second
  have among : m < (es.map Prod.fst).length := by
    rw [List.length_map]
    exact (List.getElem?_eq_some_iff.1 left).1
  have same : (es.map Prod.fst)[m]? = (es.map Prod.fst)[n]? := by
    rw [List.getElem?_map, List.getElem?_map, left, right]
    rfl
  rw [(List.getElem?_inj among distinct).1 same]

/-- Where no operation has the name, a key is looked up. -/
theorem member_mapping (site : Site) (free : Operation.find? .mapping key = none) :
    (mapping es).member site key [] =
      match es.lookup key with
      | some x => .ok x
      | none => .error (.missingKey key "mapping") := by
  have unregistered : ¬(Operation.find? (mapping es).kind key).isSome = true := by
    rw [kind, free]
    exact Bool.false_ne_true
  rw [member, if_neg unregistered]
  rfl

theorem member_of_getElem? (site : Site) (distinct : (es.map Prod.fst).Nodup)
    (free : Operation.find? .mapping key = none) (h : es[i]? = some (key, x)) :
    (mapping es).member site key [] = .ok x := by
  rw [member_mapping site free, lookup_of_mem distinct (List.mem_of_getElem? h)]

theorem member_of_no_key (site : Site) (free : Operation.find? .mapping key = none)
    (h : ∀ i, (list (es.map fun e => .string e.1)).index i ≠ .ok (.string key)) :
    (mapping es).member site key [] = .error (.missingKey key "mapping") := by
  have absent : es.lookup key = none := by
    refine Option.eq_none_iff_forall_ne_some.2 fun x found => ?_
    obtain ⟨i, there⟩ := List.getElem?_of_mem (mem_of_lookup found)
    exact h i (index_map _ there)
  rw [member_mapping site free, absent]

end Mappings

/-- The views of a list: what stands at a position of one stands at a position of the list, and the
length tells which positions there are. The views of a mapping: as many keys as values and as pairs,
all in one order, and a name that is no operation leads to what stands beside that key. -/
theorem views_agree (site : Site) (room : Nat) (xs ys : List Value) {count : Int}
    (most : count ≤ Integer.greatest) (distinct : (es.map Prod.fst).Nodup) :
    let l := list xs
    let m := mapping es
    l.Listing xs.length (fun i x => xs[i]? = some x) ∧
    (∀ called ∈ Operation.reverse.names, ∃ r, l.member site called [] = .ok r ∧
      r.Listing xs.length fun i x => l.index (xs.length - 1 - i : Nat) = .ok x) ∧
    (∀ called ∈ Operation.enumerate.names, ∃ r, l.member site called [] = .ok r ∧
      r.Listing xs.length fun i x => ∃ y, l.index i = .ok y ∧ x = .pair (.int i) y) ∧
    (∃ r, Expr.combine room .add l (list ys) = .ok r ∧
      r.Listing (xs.length + ys.length) fun i x =>
        if i < xs.length then l.index i =
          .ok x else (list ys).index (i - xs.length : Nat) = .ok x) ∧
    (∃ r, Expr.combine room .multiply l (.int count) = .ok r ∧
      Expr.combine room .multiply (.int count) l = .ok r ∧
      r.Listing (xs.length * (max count 0).toNat) fun i x =>
        l.index (i % xs.length : Nat) = .ok x) ∧
    (m.Countable → ∀ called ∈ Operation.length.names, m.member site called [] =
      .ok (.int es.length)) ∧
    ∃ keys values pairs,
      (∀ called ∈ Operation.keys.names, m.member site called [] = .ok keys) ∧
      (∀ called ∈ Operation.values.names, m.member site called [] = .ok values) ∧
      (∀ called ∈ Operation.iter.names, m.member site called [] = .ok pairs) ∧
      (keys.Listing es.length fun i x => ∃ e, es[i]? = some e ∧ x = .string e.1) ∧
      (values.Listing es.length fun i x => ∃ e, es[i]? = some e ∧ x = e.2) ∧
      (pairs.Listing es.length fun i x => ∃ key value,
        keys.index i = .ok (.string key) ∧ values.index i = .ok value ∧
          x = .pair (.string key) value) ∧
      (∀ i j key, keys.index i = .ok (.string key) → keys.index j = .ok (.string key) → i = j) ∧
      ∀ key, Operation.find? .mapping key = none →
        (∀ i, keys.index i = .ok (.string key) → m.member site key [] = values.index i) ∧
        ((∀ i, keys.index i ≠ .ok (.string key)) →
          m.member site key [] = .error (.missingKey key "mapping")) := by
  intro l m
  have ofList {o : Operation} (defined : Kind.list ∈ o.kinds) {called : String}
      (hc : called ∈ o.names) :
      l.member site called [] = o.apply called l >>= Operation.checkResult called :=
    member_operation site defined hc
  have ofMapping {o : Operation} (defined : Kind.mapping ∈ o.kinds) {called : String}
      (hc : called ∈ o.names) :
      m.member site called [] = o.apply called m >>= Operation.checkResult called :=
    member_operation site defined hc
  have repeats : repetitions count = .ok count := if_pos most
  have times : (max count 0).toNat = count.toNat := by omega
  refine ⟨listing_of_getElem? rfl fun _ _ _ found => found, ?reversed, ?enumerated,
    ⟨list (xs ++ ys), rfl, listing_append xs ys⟩, ?multiplied, ?length,
    list (es.map fun e => .string e.1),
    list (es.map Prod.snd), list (es.map fun e => .pair (.string e.1) e.2), ?keys, ?values, ?pairs,
    listing_map _ es, listing_map _ es, listing_pairs es, ?distinct,
      fun key free => ⟨?found, ?missing⟩⟩
  case reversed =>
    intro called hc
    exact ⟨list xs.reverse, ofList (o := .reverse) (by decide) hc, listing_reverse xs⟩
  case enumerated =>
    intro called hc
    exact ⟨list (Operation.pairsFrom 0 xs), ofList (o := .enumerate) (by decide) hc,
      listing_pairsFrom xs⟩
  case multiplied =>
    refine ⟨list (repeated count xs), ?_, ?_, times ▸ listing_repeated count xs⟩
    · change (repetitions count).map _ = _
      rw [repeats, map_ok]
    · change (repetitions count).map _ = _
      rw [repeats, map_ok]
  case length =>
    intro countable called hc
    rw [ofMapping (o := .length) (by decide) hc]
    exact checkResult_length called countable
  case keys => exact fun called hc => ofMapping (o := .keys) (by decide) hc
  case values => exact fun called hc => ofMapping (o := .values) (by decide) hc
  case pairs => exact fun called hc => ofMapping (o := .iter) (by decide) hc
  case distinct => exact fun i j key first second => key_position_unique distinct first second
  case found =>
    intro i first
    obtain ⟨j, value, rfl, there⟩ := entry_of_key first
    rw [index_map Prod.snd there, member_of_getElem? site distinct free there]
  case missing => exact member_of_no_key site free

/-- A list of two items twice over, and a mapping with a key that is also the name of an operation.
The name leads to the operation; what stands beside the key is among the values only. -/
theorem views_agree_shadowed_key :
    ∃ r, Expr.combine 0 .multiply (list [.null, .bool true]) (.int 2) = .ok r ∧
      r.index 3 = .ok (.bool true) ∧ r.index 4 = .error (.indexOutOfBounds 4 4) ∧
      ∃ values,
        (mapping [("len", .int 7), ("a", .int 8)]).member .top "values" [] = .ok values ∧
        values.index 0 = .ok (.int 7) ∧
        (mapping [("len", .int 7), ("a", .int 8)]).member .top "len" [] = .ok (.int 2) ∧
        (mapping [("len", .int 7), ("a", .int 8)]).member .top "a" [] = .ok (.int 8) := by
  obtain ⟨-, -, -, -, ⟨r, repeats, -, items⟩, counted, keys, values, -, hk, hv, -, -, shown, -, -,
      named⟩ :=
    views_agree .top 0 [.null, .bool true] [] (show (2 : Int) ≤ Integer.greatest by decide)
      (show ([("len", Value.int 7), ("a", .int 8)].map Prod.fst).Nodup by decide)
  have listed := hk "keys" (by decide)
  have read := hv "values" (by decide)
  obtain ⟨x, third, there⟩ := items.inside 3 (by decide)
  obtain ⟨y, first, e, entry, rfl⟩ := shown.inside 0 (by decide)
  cases there
  cases entry
  refine ⟨r, repeats, third, items.outside 4 (by decide), values, read, first,
    counted (by decide) "len" (by decide), ?_⟩
  cases listed
  cases read
  exact (named "a" (by decide)).1 1 rfl

end Value
end Stencil
