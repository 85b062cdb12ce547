import Stencil.Context
import Stencil.Proofs.Value.Paired

/-! Host data side by side. It is converted to values side by side, and two contexts made of it give
values side by side to the same names. -/
namespace Stencil
open Outcome

namespace Value
variable {R : Record → Record → Prop} {es fs : List (String × Value)} {v w : Value}

theorem EntriesPaired.insert (h : EntriesPaired R es fs) (key : String) (hv : Paired R v w) :
    EntriesPaired R (insert es key v) (insert fs key w) := by
  induction h with
  | nil => exact .cons ⟨rfl, hv⟩ .nil
  | @cons e f _ _ first others ih =>
    obtain ⟨k, x⟩ := e
    obtain ⟨k', y⟩ := f
    obtain ⟨same, paired⟩ := first
    dsimp only at same paired
    subst same
    unfold Value.insert
    split
    · exact .cons ⟨rfl, hv⟩ others
    · exact .cons ⟨rfl, paired⟩ ih

end Value

namespace Host

/-- Keys that have the same text and are equal to the same texts. -/
def SameKey (k l : Host) : Prop :=
  k.keyName = l.keyName ∧ ∀ s, k.same (.string s) = l.same (.string s)

def IsPlain : Host → Bool
  | null | bool _ | int _ | float _ | string _ | decimal _ | date _ | datetime _ | uuid _ |
      unsupported _ => true
  | list _ | tuple _ | pair .. | mapping _ | standIn .. | provider .. | method _ | record _ => false

inductive Paired (R : Record → Record → Prop) : Host → Host → Prop where
  | plain {x : Host} : x.IsPlain = true → Paired R x x
  | list {xs ys : List Host} : List.Forall₂ (Paired R) xs ys → Paired R (.list xs) (.list ys)
  | tuple {xs ys : List Host} : List.Forall₂ (Paired R) xs ys → Paired R (.tuple xs) (.tuple ys)
  | pair {a b c d : Host} : Paired R a c → Paired R b d → Paired R (.pair a b) (.pair c d)
  | mapping {es fs : List (Host × Host)} :
      List.Forall₂ SameKey (es.map Prod.fst) (fs.map Prod.fst) →
      List.Forall₂ (Paired R) (es.map Prod.snd) (fs.map Prod.snd) →
      Paired R (.mapping es) (.mapping fs)
  | standIn (face : Face) {x y : Host} : Paired R x y → Paired R (.standIn face x) (.standIn face y)
  | provider (face : Face) {x y : Host} :
      Paired R x y → Paired R (.provider face x) (.provider face y)
  | method {x y : Host} : Paired R x y → Paired R (.method x) (.method y)
  | record {r s : Record} : R r s → Paired R (.record r) (.record s)

def EntriesPaired (R : Record → Record → Prop) (es fs : List (Host × Host)) : Prop :=
  List.Forall₂ (fun e f => SameKey e.1 f.1 ∧ Paired R e.2 f.2) es fs

variable {R : Record → Record → Prop} {x y : Host} {xs ys : List Host} {es fs : List (Host × Host)}

theorem toValues_paired
    (h : List.Forall₂ (fun x y => Outcome.Paired (Value.Paired R) x.toValue y.toValue) xs ys) :
    Outcome.Paired (List.Forall₂ (Value.Paired R)) (toValues xs) (toValues ys) := by
  induction h with
  | nil => exact .ok .nil
  | cons first _ ih =>
    exact first.bind fun _ _ first => ih.bind fun _ _ others => .ok (.cons first others)

theorem toEntries_congr {done done' : List (String × Value)} (hd : Value.EntriesPaired R done done')
    (h : List.Forall₂
      (fun e f => SameKey e.1 f.1 ∧
        Outcome.Paired (Value.Paired R) e.2.toValue f.2.toValue) es fs) :
    Outcome.Paired (Value.EntriesPaired R) (toEntries done es) (toEntries done' fs) := by
  induction h generalizing done done' with
  | nil => exact .ok hd
  | @cons e f _ _ first _ ih =>
    obtain ⟨k, x⟩ := e
    obtain ⟨l, y⟩ := f
    obtain ⟨⟨text, -⟩, converted⟩ := first
    dsimp only at text converted
    rw [toEntries, toEntries, text]
    cases l.keyName with
    | ok name => exact converted.bind fun _ _ hv => ih (hd.insert name hv)
    | error fault => exact .error fault

theorem toValue_plain (h : x.IsPlain = true) :
    Outcome.Paired (Value.Paired R) x.toValue x.toValue := by
  cases x with
  | null | bool | float | string | date | datetime | uuid => exact .ok (.plain rfl)
  | int n => exact Value.plain_map fun _ => rfl
  | decimal d =>
    rw [toValue]
    split
    · exact .ok (.plain rfl)
    · exact .error _
  | unsupported name => exact .error _
  | _ => cases h

theorem Paired.toValue (h : Paired R x y) :
    Outcome.Paired (Value.Paired R) x.toValue y.toValue := by
  refine @Paired.rec R (fun x y _ => Outcome.Paired (Value.Paired R) x.toValue y.toValue)
    (fun xs ys _ =>
      List.Forall₂ (fun x y => Outcome.Paired (Value.Paired R) x.toValue y.toValue) xs ys)
    ?_ ?_ ?_ ?_ ?_ ?_ ?_ ?_ ?_ .nil ?_ _ _ h
  · exact fun plain => toValue_plain plain
  · intro xs ys _ items
    exact (toValues_paired items).bind fun _ _ converted => .ok (.list converted)
  · intro xs ys _ items
    exact (toValues_paired items).bind fun _ _ converted => .ok (.list converted)
  · intro a b c d _ _ first second
    exact first.bind fun _ _ first => second.bind fun _ _ second => .ok (.pair first second)
  · intro es fs keys _ values
    have entries := forall₂_entries_iff.2 ⟨keys, values⟩
    exact (toEntries_congr .nil entries).bind fun _ _ converted =>
      .ok (Value.paired_mapping_iff.2 converted)
  · exact fun _ _ _ _ converted => converted
  · exact fun _ _ _ _ _ => .error _
  · exact fun _ _ => .error _
  · exact fun hr => .ok (.record hr)
  · exact fun _ _ first others => .cons first others

theorem EntriesPaired.toEntries (h : EntriesPaired R es fs) :
    Outcome.Paired (Value.EntriesPaired R) (Host.toEntries [] es) (Host.toEntries [] fs) :=
  toEntries_congr .nil (h.imp fun _ _ paired => ⟨paired.1, paired.2.toValue⟩)

theorem EntriesPaired.insert (h : EntriesPaired R es fs) (name : String) (hx : Paired R x y) :
    EntriesPaired R (insert es (.string name) x) (insert fs (.string name) y) := by
  induction h with
  | nil => exact .cons ⟨⟨rfl, fun _ => rfl⟩, hx⟩ .nil
  | @cons e f _ _ first others ih =>
    obtain ⟨k, a⟩ := e
    obtain ⟨l, b⟩ := f
    obtain ⟨⟨text, equal⟩, paired⟩ := first
    dsimp only at text equal paired
    rw [Host.insert, Host.insert, equal name]
    split
    · exact .cons ⟨⟨text, equal⟩, hx⟩ others
    · exact .cons ⟨⟨text, equal⟩, paired⟩ ih

theorem Paired.typeName (names : ∀ r s, R r s → r.typeName = s.typeName) (h : Paired R x y) :
    x.typeName = y.typeName := by
  cases h with
  | record hr => exact names _ _ hr
  | _ => rfl

end Host

structure Record.Pairing (R : Record → Record → Prop) : Prop where
  typeName : ∀ r s, R r s → r.typeName = s.typeName
  field? : ∀ r s, R r s → ∀ site name,
    Outcome.Paired (Option.Rel (Value.Paired R)) (r.field? site name) (s.field? site name)
  provided : ∀ r s, R r s →
    Outcome.Paired (Host.Paired R) (Context.provided (.record r)) (Context.provided (.record s))

variable {R : Record → Record → Prop}

namespace Value
variable {v w : Value} {xs ys : List Value}

theorem Paired.receiver (pairing : Record.Pairing R) (h : Paired R v w) :
    v.receiver = w.receiver := by
  cases h with
  | record hr => exact pairing.typeName _ _ hr
  | _ => rfl

theorem member_paired (pairing : Record.Pairing R) (site : Site) (h : Paired R v w) (name : String)
    (args : List.Forall₂ (Paired R) xs ys) :
    Outcome.Paired (Paired R) (v.member site name xs) (w.member site name ys) := by
  have receiver := h.receiver pairing
  have called := call_paired h name args
  have empty : xs.isEmpty = ys.isEmpty := by cases args <;> rfl
  unfold member
  rw [h.kind, empty]
  split
  · exact called
  · split
    · exact .error _
    · cases h with
      | @plain v plain => cases v <;> first | exact .error _ | cases plain
      | list | pair => exact .error _
      | mapping keys values =>
        have entries := paired_mapping_iff.1 (.mapping keys values)
        rcases entries.lookup name with ⟨left, right⟩ | ⟨v, w, left, right, found⟩
        · simp only [left, right]
          exact .error _
        · simp only [left, right]
          exact .ok found
      | record hr =>
        refine (pairing.field? _ _ hr site name).bind fun found found' hf => ?_
        cases hf with
        | some paired => exact .ok paired
        | none =>
          dsimp only
          rw [receiver]
          exact .error _

end Value

namespace Context

theorem provided_paired (pairing : Record.Pairing R) {x y : Host} (h : Host.Paired R x y) :
    Outcome.Paired (Host.Paired R) (provided x) (provided y) := by
  cases h with
  | @plain x plain => cases x <;> first | exact .ok (.plain plain) | cases plain
  | list items => exact .ok (.list items)
  | tuple items => exact .ok (.tuple items)
  | pair first second => exact .ok (.pair first second)
  | mapping keys values => exact .ok (.mapping keys values)
  | standIn face hx => exact .ok (.standIn face hx)
  | provider face hx => exact .ok hx
  | method hx => exact .ok (.method hx)
  | record hr => exact pairing.provided _ _ hr

theorem entriesOf_paired (pairing : Record.Pairing R) {data data' : Option Host}
    (h : Option.Rel (Host.Paired R) data data') :
    Outcome.Paired (Host.EntriesPaired R) (entriesOf data) (entriesOf data') := by
  cases h with
  | none => exact .ok .nil
  | some hx =>
    refine (provided_paired pairing hx).bind fun x y paired => ?_
    have name := paired.typeName pairing.typeName
    cases paired with
    | mapping keys values => exact .ok (forall₂_entries_iff.2 ⟨keys, values⟩)
    | @plain x plain => cases x <;> first | exact .error _ | cases plain
    | list | tuple | pair | standIn | provider | method => exact .error _
    | record =>
      dsimp only
      rw [name]
      exact .error _

/-- Contexts made of data side by side give values side by side. -/
theorem build_paired (pairing : Record.Pairing R) {data data' : Option Host}
    {named named' : List (String × Host)} (h : Option.Rel (Host.Paired R) data data')
    (hn : List.Forall₂ (fun a b => a.1 = b.1 ∧ Host.Paired R a.2 b.2) named named') :
    Outcome.Paired (Value.EntriesPaired R) (build data named) (build data' named') := by
  have under {es fs : List (Host × Host)} (entries : Host.EntriesPaired R es fs) :
      Host.EntriesPaired R (named.foldl (fun done v => Host.insert done (.string v.1) v.2) es)
        (named'.foldl (fun done v => Host.insert done (.string v.1) v.2) fs) := by
    induction hn generalizing es fs with
    | nil => exact entries
    | @cons a b _ _ first _ ih =>
      rw [List.foldl_cons, List.foldl_cons, first.1]
      exact ih (entries.insert b.1 first.2)
  have bound :
      Outcome.Paired (Host.EntriesPaired R) (bindings data named) (bindings data' named') :=
    (entriesOf_paired pairing h).bind fun _ _ entries => .ok (under entries)
  exact bound.bind fun _ _ entries => entries.toEntries

end Context
end Stencil
