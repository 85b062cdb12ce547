import Mathlib
import Stencil.Expr.Eval
import Stencil.Proofs.Outcome

/-! Two values side by side that differ in their records only, and there only as a relation allows.
All that is done with values keeps them so; what is seen of them on a page is the same. -/
namespace Stencil

theorem forall₂_entries_iff {α β γ δ : Type} {K : α → γ → Prop} {P : β → δ → Prop}
    {es : List (α × β)} {fs : List (γ × δ)} :
    List.Forall₂ (fun e f => K e.1 f.1 ∧ P e.2 f.2) es fs ↔
      List.Forall₂ K (es.map Prod.fst) (fs.map Prod.fst) ∧
        List.Forall₂ P (es.map Prod.snd) (fs.map Prod.snd) := by
  induction es generalizing fs with
  | nil => cases fs <;> simp
  | cons e es ih => cases fs <;> simp [ih, and_assoc, and_left_comm]

def Record.Keeps (R : Record → Record → Prop) : Prop :=
  ∀ r r' s s', R r r' → R s s' → r.same s = r'.same s'

namespace Value
open Outcome

def IsPlain : Value → Bool
  | null | bool _ | int _ | float _ | string _ => true
  | list _ | pair .. | mapping _ | record _ => false

inductive Paired (R : Record → Record → Prop) : Value → Value → Prop where
  | plain {v : Value} : v.IsPlain = true → Paired R v v
  | list {xs ys : List Value} : List.Forall₂ (Paired R) xs ys → Paired R (.list xs) (.list ys)
  | pair {a b c d : Value} : Paired R a c → Paired R b d → Paired R (.pair a b) (.pair c d)
  | mapping {es fs : List (String × Value)} : es.map Prod.fst = fs.map Prod.fst →
      List.Forall₂ (Paired R) (es.map Prod.snd) (fs.map Prod.snd) →
      Paired R (.mapping es) (.mapping fs)
  | record {r s : Record} : R r s → Paired R (.record r) (.record s)

def EntriesPaired (R : Record → Record → Prop) (es fs : List (String × Value)) : Prop :=
  List.Forall₂ (fun e f => e.1 = f.1 ∧ Paired R e.2 f.2) es fs

variable {R : Record → Record → Prop} {v w x x' y y' : Value} {xs xs' ys ys' : List Value}
  {es fs : List (String × Value)}

theorem paired_mapping_iff : Paired R (.mapping es) (.mapping fs) ↔ EntriesPaired R es fs := by
  rw [EntriesPaired, forall₂_entries_iff, List.forall₂_eq_eq_eq]
  constructor
  · intro h
    cases h with
    | plain plain => cases plain
    | mapping keys values => exact ⟨keys, values⟩
  · rintro ⟨keys, values⟩
    exact .mapping keys values

/-- Induction over both values, what is shown of the items of lists and mappings being at hand. -/
theorem Paired.induction {P : Value → Value → Prop} (plain : ∀ v : Value, v.IsPlain = true → P v v)
    (list : ∀ xs ys, List.Forall₂ (Paired R) xs ys → List.Forall₂ P xs ys → P (.list xs) (.list ys))
    (pair : ∀ a b c d, P a c → P b d → P (.pair a b) (.pair c d))
    (mapping : ∀ es fs, EntriesPaired R es fs →
      List.Forall₂ (fun e f => e.1 = f.1 ∧ P e.2 f.2) es fs →
      P (.mapping es) (.mapping fs))
    (record : ∀ r s, R r s → P (.record r) (.record s)) (h : Paired R v w) : P v w := by
  refine @Paired.rec R (fun x y _ => P x y) (fun xs ys _ => List.Forall₂ P xs ys)
    ?_ ?_ ?_ ?_ ?_ .nil ?_ _ _ h
  · intro v hv
    exact plain v hv
  · intro xs ys paired items
    exact list xs ys paired items
  · intro a b c d _ _ first second
    exact pair a b c d first second
  · intro es fs keys paired values
    refine mapping es fs (paired_mapping_iff.1 (.mapping keys paired)) ?_
    rw [forall₂_entries_iff, List.forall₂_eq_eq_eq]
    exact ⟨keys, values⟩
  · intro r s hr
    exact record r s hr
  · intro a b xs ys _ _ first others
    exact .cons first others

section Views

theorem Paired.kind (h : Paired R v w) : v.kind = w.kind := by cases h <;> rfl

theorem Paired.truthy (h : Paired R v w) : v.truthy = w.truthy := by
  cases h with
  | plain | pair | record => rfl
  | list items => cases items <;> rfl
  | @mapping es fs keys =>
    cases es <;> cases fs <;> simp_all [Value.truthy]

theorem displayAll_congr
    (h : List.Forall₂ (fun v w => ∀ room, v.display room = w.display room) xs ys)
    (room : Nat) : displayAll room xs = displayAll room ys := by
  induction h with
  | nil => rfl
  | cons first _ ih => rw [displayAll, displayAll, first, ih]

theorem displayEntries_congr
    (h : List.Forall₂ (fun e f => e.1 = f.1 ∧ ∀ room, e.2.display room = f.2.display room) es fs)
    (room : Nat) :
    displayEntries room es = displayEntries room fs := by
  induction h with
  | nil => rfl
  | @cons e f _ _ first _ ih =>
    obtain ⟨key, v⟩ := e
    obtain ⟨key', w⟩ := f
    obtain ⟨same, shown⟩ := first
    dsimp only at same shown
    rw [displayEntries, displayEntries, same, shown, ih]

theorem Paired.display (h : Paired R v w) (room : Nat) : v.display room = w.display room := by
  refine h.induction (P := fun v w => ∀ room, v.display room = w.display room) ?_ ?_ ?_ ?_ ?_ room
  · exact fun _ _ _ => rfl
  · intro xs ys _ items room
    simp only [Value.display, displayAll_congr items]
  · intro a b c d first second room
    simp only [Value.display, first, second]
  · intro es fs _ entries room
    simp only [Value.display, displayEntries_congr entries]
  · exact fun _ _ _ _ => rfl

end Views

/-- A key leads nowhere on either side, or to values side by side. -/
theorem EntriesPaired.lookup (h : EntriesPaired R es fs) (key : String) :
    (es.lookup key = none ∧ fs.lookup key = none) ∨
      ∃ v w, es.lookup key = some v ∧ fs.lookup key = some w ∧ Paired R v w := by
  induction h with
  | nil => exact .inl ⟨rfl, rfl⟩
  | @cons e f _ _ first _ ih =>
    obtain ⟨k, v⟩ := e
    obtain ⟨k', w⟩ := f
    obtain ⟨same, paired⟩ := first
    dsimp only at same paired
    subst same
    rw [List.lookup_cons, List.lookup_cons]
    cases key == k with
    | true => exact .inr ⟨v, w, rfl, rfl, paired⟩
    | false => exact ih

section Equality
variable (keeps : Record.Keeps R)

theorem equalAllWithin_congr
    (h : List.Forall₂ (fun x x' => ∀ y y', Paired R y y' →
      ∀ room, x.equalWithin room y = x'.equalWithin room y')
      xs xs')
    (hy : List.Forall₂ (Paired R) ys ys') (room : Nat) :
    equalAllWithin room xs ys = equalAllWithin room xs' ys' := by
  induction h generalizing ys ys' with
  | nil => cases hy <;> rfl
  | cons first _ ih =>
    cases hy with
    | nil => rfl
    | cons hy others => rw [equalAllWithin, equalAllWithin, first _ _ hy, ih others]

theorem equalEntriesWithin_congr {gs hs : List (String × Value)}
    (h : List.Forall₂ (fun e f => e.1 = f.1 ∧
      ∀ y y', Paired R y y' → ∀ room, e.2.equalWithin room y = f.2.equalWithin room y') es fs)
    (hy : EntriesPaired R gs hs) (room : Nat) :
    equalEntriesWithin room es gs = equalEntriesWithin room fs hs := by
  induction h with
  | nil => rfl
  | @cons e f _ _ first _ ih =>
    obtain ⟨key, v⟩ := e
    obtain ⟨key', w⟩ := f
    obtain ⟨same, paired⟩ := first
    dsimp only at same paired
    subst same
    rw [equalEntriesWithin, equalEntriesWithin, ih]
    rcases hy.lookup key with ⟨left, right⟩ | ⟨y, y', left, right, found⟩
    · rw [left, right]
    · simp only [left, right, paired _ _ found]

theorem EntriesPaired.all_isSome {gs hs : List (String × Value)} (h : EntriesPaired R es fs)
    (hy : EntriesPaired R gs hs) :
    (es.all fun e => (gs.lookup e.1).isSome) = fs.all fun e => (hs.lookup e.1).isSome := by
  induction h with
  | nil => rfl
  | @cons e f _ _ first _ ih =>
    rw [List.all_cons, List.all_cons, ih, first.1]
    rcases hy.lookup f.1 with ⟨left, right⟩ | ⟨y, y', left, right, found⟩
      <;> simp only [left, right, Option.isSome_none, Option.isSome_some]

include keeps in
theorem Paired.equalWithin (hx : Paired R x x') (hy : Paired R y y') (room : Nat) :
    x.equalWithin room y = x'.equalWithin room y' := by
  refine hx.induction
    (P := fun x x' => ∀ y y', Paired R y y' → ∀ room, x.equalWithin room y = x'.equalWithin room y')
    ?_ ?_ ?_ ?_ ?_ y y' hy room
  · intro x plain y y' hy room
    cases hy with
    | plain => rfl
    | list | pair | mapping | record => cases x <;> first | rfl | cases plain
  · intro xs xs' paired items y y' hy room
    cases hy with
    | @plain y plain => cases y <;> first | rfl | cases plain
    | list others =>
      simp only [Value.equalWithin, paired.length_eq, others.length_eq,
        equalAllWithin_congr items others]
    | pair | mapping | record => rfl
  · intro a b a' b' first second y y' hy room
    cases hy with
    | @plain y plain => cases y <;> first | rfl | cases plain
    | pair hc hd => simp only [Value.equalWithin, first _ _ hc, second _ _ hd]
    | list | mapping | record => rfl
  · intro es es' paired entries y y' hy room
    cases hy with
    | @plain y plain => cases y <;> first | rfl | cases plain
    | @mapping fs fs' keys values =>
      have others := paired_mapping_iff.1 (.mapping keys values)
      simp only [Value.equalWithin, paired.length_eq, others.length_eq, paired.all_isSome others,
        equalEntriesWithin_congr entries others]
    | list | pair | record => rfl
  · intro r r' hr y y' hy room
    cases hy with
    | @plain y plain => cases y <;> first | rfl | cases plain
    | record hs => exact congrArg Except.ok (keeps _ _ _ _ hr hs)
    | list | pair | mapping => rfl

end Equality

section Operators

theorem Paired.ordered (op : Operator) (hx : Paired R x x') (hy : Paired R y y') :
    x.ordered op y = x'.ordered op y' := by
  cases hx with
  | @plain x => cases hy <;> first | rfl | (cases x <;> rfl)
  | list | pair | mapping | record => cases hy <;> rfl

theorem forall₂_repeated (count : Int) (h : List.Forall₂ (Paired R) xs ys) :
    List.Forall₂ (Paired R) (repeated count xs) (repeated count ys) := by
  have copies (n : Nat) :
      List.Forall₂ (Paired R) (List.replicate n xs).flatten (List.replicate n ys).flatten := by
    induction n with
    | zero => exact .nil
    | succ n ih => exact List.rel_append h ih
  cases h with
  | nil => exact .nil
  | cons => exact copies count.toNat

theorem repeats_paired (n : Int) (h : List.Forall₂ (Paired R) xs ys) :
    Outcome.Paired (Paired R) ((repetitions n).map fun count => .list (repeated count xs))
      ((repetitions n).map fun count => .list (repeated count ys)) :=
  (Outcome.Paired.self fun _ _ => rfl).map fun count _ same =>
    same ▸ .list (forall₂_repeated count h)

theorem plain_map {α : Type} {x : Except RenderFault α} {f : α → Value}
    (h : ∀ a, (f a).IsPlain = true) :
    Outcome.Paired (Paired R) (x.map f) (x.map f) :=
  (Outcome.Paired.self fun _ _ => rfl).map fun a _ same => same ▸ .plain (h a)

theorem sequenceArithmetic_paired (op : Operator) (hx : Paired R x x') (hy : Paired R y y') :
    Outcome.Paired (Paired R) (x.sequenceArithmetic op y) (x'.sequenceArithmetic op y') := by
  cases hx with
  | @plain x plain =>
    cases hy with
    | @plain y plain' =>
      unfold sequenceArithmetic
      split
      · exact .ok (.plain rfl)
      · cases plain
      · exact .ok (.plain rfl)
      · exact plain_map fun _ => rfl
      · exact plain_map fun _ => rfl
      · cases plain
      · cases plain'
      · exact .error _
    | list items =>
      cases op <;> cases x <;> first | exact .error _ | exact repeats_paired _ items | cases plain
    | pair | mapping | record => cases op <;> cases x <;> exact .error _
  | list items =>
    cases hy with
    | @plain y plain =>
      cases op <;> cases y <;> first | exact .error _ | exact repeats_paired _ items | cases plain
    | list others =>
      cases op <;> first | exact .error _ | exact .ok (.list (List.rel_append items others))
    | pair | mapping | record => cases op <;> exact .error _
  | pair | mapping | record => cases op <;> cases hy <;> exact .error _

theorem arithmetic_paired (op : Operator) (hx : Paired R x x') (hy : Paired R y y') :
    Outcome.Paired (Paired R) (x.arithmetic op y) (x'.arithmetic op y') := by
  have sequence := sequenceArithmetic_paired op hx hy
  cases hx with
  | @plain x plain =>
    cases hy with
    | @plain y plain' =>
      unfold arithmetic
      split
      · exact plain_map fun _ => rfl
      · exact (Outcome.Paired.self fun _ _ => rfl).bind fun a b same =>
          same ▸ plain_map fun _ => rfl
      · exact (Outcome.Paired.self fun _ _ => rfl).bind fun a b same =>
          same ▸ plain_map fun _ => rfl
      · exact plain_map fun _ => rfl
      · exact sequence
    | list | pair | mapping | record => cases x <;> exact sequence
  | list | pair | mapping | record => cases hy <;> exact sequence

theorem combine_paired (room : Nat) {op : Operator}
    (keeps : op = .equal ∨ op = .notEqual → Record.Keeps R) (hx : Paired R x x')
    (hy : Paired R y y') :
    Outcome.Paired (Paired R) (Expr.combine room op x y) (Expr.combine room op x' y') := by
  unfold Expr.combine
  split
  · rw [hy.truthy]
    exact .ok (.plain rfl)
  · rw [hy.truthy]
    exact .ok (.plain rfl)
  · rw [hx.equalWithin (keeps (.inl rfl)) hy]
    exact plain_map fun _ => rfl
  · rw [hx.equalWithin (keeps (.inr rfl)) hy]
    exact plain_map fun _ => rfl
  · rw [hx.ordered _ hy]
    exact plain_map fun _ => rfl
  · rw [hx.ordered _ hy]
    exact plain_map fun _ => rfl
  · rw [hx.ordered _ hy]
    exact plain_map fun _ => rfl
  · rw [hx.ordered _ hy]
    exact plain_map fun _ => rfl
  · exact arithmetic_paired op hx hy

theorem signed_paired (negate : Bool) (text : String) (h : Paired R v w) :
    Outcome.Paired (Paired R) (Expr.signed negate text v) (Expr.signed negate text w) := by
  cases h with
  | @plain v plain =>
    unfold Expr.signed
    split
    · split
      · exact plain_map fun _ => rfl
      · exact .ok (.plain rfl)
    · exact .ok (.plain (by split <;> rfl))
    · exact .error _
  | list | pair | mapping | record => exact .error _

end Operators

section Operations
open Operation

theorem pairsFrom_paired (start : Nat) (h : List.Forall₂ (Paired R) xs ys) :
    List.Forall₂ (Paired R) (pairsFrom start xs) (pairsFrom start ys) := by
  induction h generalizing start with
  | nil => exact .nil
  | cons first _ ih => exact .cons (.pair (.plain rfl) first) (ih (start + 1))

theorem integerOf_plain (called : String) (x : Float) (r : Except RenderFault.NoInteger Int) :
    Outcome.Paired (Paired R) (integerOf called x r) (integerOf called x r) := by
  cases r with
  | ok n => exact .ok (.plain rfl)
  | error cause => exact .error _

theorem apply_plain (o : Operation) (called : String) (plain : v.IsPlain = true) :
    Outcome.Paired (Paired R) (o.apply called v) (o.apply called v) := by
  unfold Operation.apply
  split
  -- numbers
  · exact .ok (.plain rfl)
  · exact .ok (.plain rfl)
  · exact plain_map fun _ => rfl
  · split
    · exact .ok (.plain rfl)
    · exact .error _
  · exact integerOf_plain _ _ _
  · split
    · exact .error _
    · split
      · exact .error _
      · exact .ok (.list (List.forall₂_same.2 (List.forall_mem_map.2 fun i _ => .plain rfl)))
  · exact integerOf_plain _ _ _
  · exact integerOf_plain _ _ _
  · exact integerOf_plain _ _ _
  -- texts
  · exact .ok (.plain rfl)
  · exact .ok (.plain rfl)
  · exact .ok (.plain rfl)
  · exact .ok (.plain rfl)
  -- lists and mappings are not plain
  · cases plain
  · cases plain
  · cases plain
  · cases plain
  · cases plain
  · cases plain
  · cases plain
  · exact .error _

theorem apply_paired (o : Operation) (called : String) (h : Paired R v w) :
    Outcome.Paired (Paired R) (o.apply called v) (o.apply called w) := by
  have shown :
      Outcome.Paired (Paired R) ((v.display 0).map .string) ((w.display 0).map .string) := by
    rw [h.display]
    exact plain_map fun _ => rfl
  cases h with
  | plain plain => exact apply_plain o called plain
  | list items =>
    cases o with
    | toText => exact shown
    | length => exact .ok (items.length_eq ▸ .plain rfl)
    | enumerate => exact .ok (.list (pairsFrom_paired 0 items))
    | reverse => exact .ok (.list (List.forall₂_reverse_iff.2 items))
    | _ => exact .error _
  | pair =>
    cases o with
    | toText => exact shown
    | _ => exact .error _
  | record =>
    cases o with
    | toText => exact shown
    | _ => exact .error _
  | mapping keys values =>
    have entries := paired_mapping_iff.1 (.mapping keys values)
    cases o with
    | toText => exact shown
    | length => exact .ok (entries.length_eq ▸ .plain rfl)
    | keys =>
      refine .ok (.list ?_)
      rw [List.forall₂_map_left_iff, List.forall₂_map_right_iff]
      exact entries.imp fun e f h => h.1 ▸ .plain rfl
    | values => exact .ok (.list values)
    | iter =>
      refine .ok (.list ?_)
      rw [List.forall₂_map_left_iff, List.forall₂_map_right_iff]
      exact entries.imp fun e f h => .pair (h.1 ▸ .plain rfl) h.2
    | _ => exact .error _

theorem checkResult_paired (called : String) (h : Paired R v w) :
    Outcome.Paired (Paired R) (checkResult called v) (checkResult called w) := by
  cases h with
  | @plain v plain =>
    unfold checkResult
    split
    · exact plain_map fun _ => rfl
    · exact .ok (.plain plain)
  | list items => exact .ok (.list items)
  | pair first second => exact .ok (.pair first second)
  | mapping keys values => exact .ok (.mapping keys values)
  | record hr => exact .ok (.record hr)

theorem call_paired (h : Paired R v w) (name : String) (args : List.Forall₂ (Paired R) xs ys) :
    Outcome.Paired (Paired R) (Operation.call v name xs) (Operation.call w name ys) := by
  rw [Operation.call, Operation.call, h.kind, args.length_eq]
  cases find? w.kind name with
  | none => exact .error _
  | some o =>
    have empty : xs.isEmpty = ys.isEmpty := by cases args <;> rfl
    dsimp only
    rw [empty]
    split
    · exact (apply_paired o name h).bind fun _ _ => checkResult_paired name
    · exact .error _

theorem atIndex_paired (h : List.Forall₂ (Paired R) xs ys) (i : Int) :
    Outcome.Paired (Paired R) (atIndex xs i) (atIndex ys i) := by
  have item (n : Nat) : (xs[n]? = none ∧ ys[n]? = none) ∨
      ∃ v w, xs[n]? = some v ∧ ys[n]? = some w ∧ Paired R v w := by
    induction h generalizing n with
    | nil => exact .inl ⟨rfl, rfl⟩
    | cons first _ ih =>
      cases n with
      | zero => exact .inr ⟨_, _, rfl, rfl, first⟩
      | succ n => exact ih n
  rw [atIndex, atIndex, h.length_eq]
  by_cases negative : i < 0
  · rw [if_pos negative, if_pos negative]
    exact .error _
  · rw [if_neg negative, if_neg negative]
    rcases item i.toNat with ⟨left, right⟩ | ⟨v, w, left, right, found⟩
    · rw [left, right]
      exact .error _
    · rw [left, right]
      exact .ok found

theorem index_paired (h : Paired R v w) (i : Int) :
    Outcome.Paired (Paired R) (v.index i) (w.index i) := by
  cases h with
  | @plain v plain => cases v <;> first | exact .error _ | cases plain
  | list items => exact atIndex_paired items i
  | pair first second => exact atIndex_paired (.cons first (.cons second .nil)) i
  | mapping | record => exact .error _

theorem apply_function_paired (g : Globals) (f : GlobalFunction)
    (h : List.Forall₂ (Paired R) xs ys) :
    Outcome.Paired (Paired R) (f.apply g xs) (f.apply g ys) := by
  cases h with
  | nil =>
    cases f with
    | turboHead => exact .ok (.plain rfl)
    | encryptNumber | decryptNumber => exact .error _
  | @cons v w vs ws first others =>
    cases others with
    | nil =>
      cases f with
      | turboHead => exact .error _
      | encryptNumber =>
        cases first with
        | plain =>
          cases v with
          | int n => exact plain_map fun _ => rfl
          | _ => exact .error _
        | list | pair | mapping | record => exact .error _
      | decryptNumber =>
        cases first with
        | plain =>
          cases v with
          | string s => exact plain_map fun _ => rfl
          | _ => exact .error _
        | list | pair | mapping | record => exact .error _
    | @cons _ _ vs ws second rest =>
      have sizes : vs.length = ws.length := rest.length_eq
      cases f <;> simp only [GlobalFunction.apply, List.length_cons, sizes]
        <;> split <;> exact .error _

theorem function_paired (g : Globals) (name : String) (h : List.Forall₂ (Paired R) xs ys) :
    Outcome.Paired (Paired R) (GlobalFunction.call g name xs) (GlobalFunction.call g name ys) := by
  unfold GlobalFunction.call
  cases GlobalFunction.find? name with
  | none => exact .error _
  | some f => exact apply_function_paired g f h

end Operations

end Value
end Stencil
