import Mathlib
import Stencil.Expr.Eval
import Stencil.Proofs.Number.Exactness
import Stencil.Proofs.Number.Widening
import Stencil.Proofs.Outcome
import Stencil.Proofs.Value.Frames

/-! Sound values: integers of 64 bits, keys that differ. Operators keep to such values, and what
they refuse they refuse in words of their own; only the remainder of an infinite number has none. -/
namespace Stencil
open Outcome

namespace RenderFault

/-- Rendering tells of the fault in its own words. All others come up from what it is built on. -/
def isReported : RenderFault → Bool
  | undefinedVariable _ | missingKey .. | undefinedOperation .. | mismatch .. | indexOutOfBounds ..
  | divisionByZero _ | undecryptable _ => true
  | _ => false

def Reported (fault : RenderFault) : Prop := fault.isReported = true

theorem tooWide_reported (place : Place) {n : Int} (h : Integer.Writable n) :
    (tooWide place n).Reported := by
  rw [h.tooWide]
  rfl

end RenderFault

theorem checkInteger_meets (place : RenderFault.Place) {n : Int} (h : Integer.Writable n) :
    Meets (fun m => Integer.fits m = true) RenderFault.Reported (checkInteger place n) := by
  unfold checkInteger
  by_cases fits : Integer.fits n = true
  · rw [if_pos fits, meets_ok]
    exact fits
  · rw [if_neg fits, meets_error]
    exact RenderFault.tooWide_reported place h

namespace Value

/-- Every integer inside fits 64 bits, and no mapping has a key twice. `R` tells which records may
be inside. -/
inductive Sound (R : Record → Prop) : Value → Prop where
  | null : Sound R .null
  | bool (b : Bool) : Sound R (.bool b)
  | int {n : Int} : Integer.fits n = true → Sound R (.int n)
  | float (x : Float) : Sound R (.float x)
  | string (s : String) : Sound R (.string s)
  | list {items : List Value} : (∀ v ∈ items, Sound R v) → Sound R (.list items)
  | pair {a b : Value} : Sound R a → Sound R b → Sound R (.pair a b)
  | mapping {entries : List (String × Value)} : (entries.map Prod.fst).Nodup →
      (∀ e ∈ entries, Sound R e.2) →
      Sound R (.mapping entries)
  | record {r : Record} : R r → Sound R (.record r)

def WellFormed (v : Value) : Prop := v.Sound fun _ => True

/-- A text, list or mapping has no more items than a 64-bit integer counts. No memory holds a longer
one. -/
def Countable : Value → Prop
  | string s => (s.length : Int) ≤ Integer.greatest
  | list items => (items.length : Int) ≤ Integer.greatest
  | mapping entries => (entries.length : Int) ≤ Integer.greatest
  | _ => True

instance (v : Value) : Decidable v.Countable :=
  match v with
  | string s => inferInstanceAs (Decidable ((s.length : Int) ≤ Integer.greatest))
  | list items => inferInstanceAs (Decidable ((items.length : Int) ≤ Integer.greatest))
  | mapping entries => inferInstanceAs (Decidable ((entries.length : Int) ≤ Integer.greatest))
  | null | bool _ | int _ | float _ | pair .. | record _ => .isTrue trivial

variable {R : Record → Prop}

theorem sound_int_iff {n : Int} : Sound R (.int n) ↔ Integer.fits n = true :=
  ⟨fun | .int h => h, .int⟩

theorem sound_list_iff {items : List Value} : Sound R (.list items) ↔ ∀ v ∈ items, Sound R v :=
  ⟨fun | .list h => h, .list⟩

theorem sound_mapping_iff {entries : List (String × Value)} :
    Sound R (.mapping entries) ↔ (entries.map Prod.fst).Nodup ∧ ∀ e ∈ entries, Sound R e.2 :=
  ⟨fun | .mapping distinct h => ⟨distinct, h⟩, fun h => .mapping h.1 h.2⟩

theorem mem_of_lookup {α : Type} {es : List (String × α)} {key : String} {x : α}
    (h : es.lookup key = some x) :
    (key, x) ∈ es := by
  obtain ⟨before, after, rfl, -⟩ := List.lookup_eq_some_iff.1 h
  exact List.mem_append_right _ List.mem_cons_self

section Arithmetic

theorem intArithmetic_cases (op : Operator) (m n : Int) :
    intArithmetic op m n = .error (.divisionByZero op) ∨
      ∃ op' r, Integer.Exact m n op' r ∧ intArithmetic op m n = checkInteger (.operator op) r := by
  unfold intArithmetic
  split
  · exact .inr ⟨.add, _, .sum, rfl⟩
  · exact .inr ⟨.subtract, _, .difference, rfl⟩
  · exact .inr ⟨.multiply, _, .product, rfl⟩
  · by_cases zero : n = 0
    · exact .inl (if_pos zero)
    · exact .inr ⟨.divide, _, Integer.exact_divide_iff.2 ⟨zero, Integer.quotient_eq_tdiv m n⟩,
        if_neg zero⟩
  · by_cases zero : n = 0
    · exact .inl (if_pos zero)
    · exact .inr ⟨.remainder, _,
        Integer.exact_remainder_iff.2 ⟨zero, Integer.remainder_eq_tmod m n⟩, if_neg zero⟩

theorem intArithmetic_meets (op : Operator) {m n : Int} (hm : Integer.fits m = true)
    (hn : Integer.fits n = true) :
    Meets (fun r => Integer.fits r = true) RenderFault.Reported (intArithmetic op m n) := by
  rcases intArithmetic_cases op m n with undefined | ⟨op', r, exact_, checked⟩
  · rw [undefined]
    exact rfl
  · rw [checked]
    exact checkInteger_meets (.operator op) (exact_.writable hm hn)

def Undivided (x y : Value) : Prop :=
  (x.number? = some .posInfinity ∨ x.number? = some .negInfinity) ∧
    ∃ q, y.number? = some q ∧ q ≠ .finite 0

theorem undivided_float_iff {a b : Float} :
    Undivided (.float a) (.float b) ↔
      Binary64.isZero b = false ∧ Binary64.remainder? a b = none := by
  unfold Undivided Binary64.isZero Binary64.remainder?
  simp only [number?, Extended.ofFloat?]
  cases Binary64.parts a with
  | nan => simp
  | finite p => cases Binary64.parts b <;> simp
  | infinite negative =>
    cases Binary64.parts b with
    | nan => cases negative <;> simp
    | infinite other => cases negative <;> cases other <;> simp
    | finite q => cases negative <;> simp [Extended.ofDyadic_eq_zero_iff]

theorem not_undivided_finite {x y : Value} {q : Rat} (h : x.number? = some (.finite q)) :
    ¬Undivided x y := by
  simp [Undivided, h]

def exactOperators : List Operator := [.add, .subtract, .multiply, .divide]

theorem floatArithmetic_meets (op : Operator) (a b : Float) :
    Meets (fun _ => True)
      (fun fault => fault.Reported ∨
        fault = .undefinedRemainder ∧ op ∉ exactOperators ∧ Undivided (.float a) (.float b))
      (floatArithmetic op a b) := by
  unfold floatArithmetic
  split
  · exact trivial
  · exact trivial
  · exact trivial
  · split
    · exact .inl rfl
    · exact trivial
  · rename_i add subtract multiply divide
    have other : op ∉ exactOperators := by
      simp only [exactOperators, List.mem_cons, List.not_mem_nil, or_false, not_or]
      exact ⟨add, subtract, multiply, divide⟩
    by_cases zero : Binary64.isZero b = true
    · rw [if_pos zero]
      exact .inl rfl
    · rw [if_neg zero]
      split
      · exact trivial
      · rename_i none
        exact .inr ⟨rfl, other, undivided_float_iff.2 ⟨by simpa using zero, none⟩⟩

/-- An integer that fits 64 bits can be taken for a double: a finite one, and zero just if the
integer is. -/
theorem widened_of_fits {n : Int} (h : Integer.fits n = true) :
    ∃ b q, widened n = .ok b ∧ number? (.float b) = some (.finite q) ∧ (q = 0 ↔ n = 0) := by
  obtain ⟨b, found, ⟨p, finite⟩, zero⟩ := Integer.toFloat?_of_fits h
  refine ⟨b, Extended.ofDyadic p, ?_, ?_, ?_⟩
  · rw [widened, found]
  · rw [number?, Extended.ofFloat?, finite]
  · rw [Extended.ofDyadic_eq_zero_iff, ← zero]
    simp [Binary64.isZero, finite]

theorem undivided_widened_iff {x : Value} {n : Int} {b : Float} {q : Rat}
    (finite : number? (.float b) = some (.finite q)) (zero : q = 0 ↔ n = 0) :
    Undivided x (.float b) ↔ Undivided x (.int n) := by
  have exact : q = 0 ↔ (n : Rat) = 0 := by rw [zero, Int.cast_eq_zero]
  have whole : number? (.int n) = some (.finite n) := rfl
  simp [Undivided, finite, whole, exact]

theorem mem_repeated {α : Type} {count : Int} {xs : List α} {a : α} (h : a ∈ repeated count xs) :
    a ∈ xs := by
  unfold repeated at h
  split at h
  · cases h
  · obtain ⟨ys, hys, ha⟩ := List.mem_flatten.1 h
    rwa [List.eq_of_mem_replicate hys] at ha

theorem repetitions_of_fits {n : Int} (h : Integer.fits n = true) : repetitions n = .ok n := by
  have most : n ≤ Integer.greatest := by
    simp only [Integer.fits, Bool.and_eq_true, decide_eq_true_eq] at h
    exact h.2
  exact if_pos most

theorem sequenceArithmetic_meets (op : Operator) {x y : Value} (hx : Sound R x) (hy : Sound R y) :
    Meets (Sound R) RenderFault.Reported (sequenceArithmetic op x y) := by
  unfold sequenceArithmetic
  split
  · exact .string _
  · rw [sound_list_iff] at hx hy
    exact .list (List.forall_mem_append.2 ⟨hx, hy⟩)
  · exact .string _
  · rw [repetitions_of_fits (sound_int_iff.1 hy)]
    exact .string _
  · rw [repetitions_of_fits (sound_int_iff.1 hx)]
    exact .string _
  · rw [repetitions_of_fits (sound_int_iff.1 hy)]
    exact .list fun v hv => sound_list_iff.1 hx v (mem_repeated hv)
  · rw [repetitions_of_fits (sound_int_iff.1 hx)]
    exact .list fun v hv => sound_list_iff.1 hy v (mem_repeated hv)
  · exact rfl

/-- Arithmetic of sound values. -/
theorem arithmetic_meets (op : Operator) {x y : Value} (hx : Sound R x) (hy : Sound R y) :
    Meets (Sound R)
      (fun fault => fault.Reported ∨ fault = .undefinedRemainder ∧ op ∉ exactOperators ∧
        Undivided x y)
      (x.arithmetic op y) := by
  unfold arithmetic
  split
  · have result := intArithmetic_meets op (sound_int_iff.1 hx) (sound_int_iff.1 hy)
    exact Meets.bind (result.imp_error fun _ h => .inl h) fun r hr => Sound.int hr
  · rename_i m b
    obtain ⟨a, q, wide, finite, -⟩ := widened_of_fits (sound_int_iff.1 hx)
    rw [wide, ok_bind]
    have result : Meets (fun _ => True) RenderFault.Reported (floatArithmetic op a b) :=
      (floatArithmetic_meets op a b).imp_error fun fault h =>
        h.resolve_right fun exception => not_undivided_finite finite exception.2.2
    exact (result.imp_error fun _ h => .inl h).bind fun r _ => Sound.float r
  · rename_i a n
    obtain ⟨b, q, wide, finite, zero⟩ := widened_of_fits (sound_int_iff.1 hy)
    rw [wide, ok_bind, ← undivided_widened_iff finite zero]
    exact (floatArithmetic_meets op a b).bind fun r _ => Sound.float r
  · exact (floatArithmetic_meets op _ _).bind fun r _ => Sound.float r
  · exact (sequenceArithmetic_meets op hx hy).imp_error fun _ h => .inl h

end Arithmetic

section Others

theorem ordered_meets (op : Operator) (x y : Value) :
    Meets (fun _ => True) RenderFault.Reported (x.ordered op y) := by
  unfold ordered
  split
  · exact trivial
  · split
    · exact trivial
    · exact rfl

mutual

/-- Without records, a value has a text, and needs just what its levels take. -/
theorem display_needs {v : Value} (h : Sound (fun _ => False) v) :
    ∃ s, Needs v.writtenFrames s fun room => v.display room := by
  cases v with
  | null | bool | int | float | string => exact ⟨_, .ok _⟩
  | record r => cases h with | record impossible => exact impossible.elim
  | list items =>
    obtain ⟨parts, found⟩ := displayAll_needs (sound_list_iff.1 h)
    exact ⟨_, (found.map fun parts => "[" ++ ", ".intercalate parts ++ "]").enter rowFrames⟩
  | pair a b =>
    cases h with
    | pair ha hb =>
      obtain ⟨first, left⟩ := display_needs ha
      obtain ⟨second, right⟩ := display_needs hb
      exact ⟨_, (left.bind (right.map fun second => s!"({first}, {second})")).enter pairFrames⟩
  | mapping entries =>
    obtain ⟨parts, found⟩ := displayEntries_needs (sound_mapping_iff.1 h).2
    exact ⟨_, (found.map fun parts => "\x7b" ++ ", ".intercalate parts ++ "\x7d").enter rowFrames⟩

theorem displayAll_needs {items : List Value} (h : ∀ v ∈ items, Sound (fun _ => False) v) :
    ∃ parts, Needs (writtenFramesAll items) parts fun room => displayAll room items := by
  cases items with
  | nil => exact ⟨_, .ok _⟩
  | cons v rest =>
    obtain ⟨first, left⟩ := display_needs (h v List.mem_cons_self)
    obtain ⟨others, right⟩ := displayAll_needs (List.forall_mem_cons.1 h).2
    exact ⟨_, left.bind (right.map fun others => first :: others)⟩

theorem displayEntries_needs {entries : List (String × Value)}
    (h : ∀ e ∈ entries, Sound (fun _ => False) e.2) :
    ∃ parts, Needs (writtenFramesEntries entries) parts fun room =>
      displayEntries room entries := by
  cases entries with
  | nil => exact ⟨_, .ok _⟩
  | cons entry rest =>
    obtain ⟨key, v⟩ := entry
    obtain ⟨first, left⟩ := display_needs (h (key, v) List.mem_cons_self)
    obtain ⟨others, right⟩ := displayEntries_needs (List.forall_mem_cons.1 h).2
    exact ⟨_, left.bind (right.map fun others => s!"{key}: {first}" :: others)⟩

end

def nested : Nat → Value
  | 0 => null
  | n + 1 => list [nested n]

theorem atIndex_meets {items : List Value} (h : ∀ v ∈ items, Sound R v) (i : Int) :
    Meets (Sound R) RenderFault.Reported (atIndex items i) := by
  unfold atIndex
  split
  · rename_i x found
    split at found
    · cases found
    · exact h x (List.mem_of_getElem? found)
  · exact rfl

theorem index_meets {v : Value} (h : Sound R v) (i : Int) :
    Meets (Sound R) RenderFault.Reported (v.index i) := by
  cases h with
  | list items => exact atIndex_meets items i
  | pair first second => exact atIndex_meets (by simpa using ⟨first, second⟩) i
  | null | bool | int | float | string | mapping | record => exact rfl

end Others

end Value

def Scope.Sound (R : Record → Prop) (scope : Scope) : Prop :=
  ∀ binding ∈ scope, Value.Sound R binding.2

namespace Expr
open Value
variable {R : Record → Prop}

/-- What two values under an operator come to where no fault of rendering tells of it: an infinite
number has no remainder, and what lies too deep is not compared. -/
def Unreported (room : Nat) (op : Operator) (x y : Value) (fault : RenderFault) : Prop :=
  fault = .undefinedRemainder ∧ op = .remainder ∧ Undivided x y ∨
    fault = .stackFull ∧ (op = .equal ∨ op = .notEqual) ∧ room < x.comparedFrames y

/-- An operator with two sound values gives a sound value or a fault of rendering, two exceptions
aside. -/
theorem combine_meets (room : Nat) (op : Operator) {x y : Value} (hx : Sound R x) (hy : Sound R y) :
    Meets (Sound R) (fun fault => fault.Reported ∨ Unreported room op x y fault)
      (combine room op x y) := by
  have ordered (op' : Operator) :
      Meets (Sound R) (fun fault => fault.Reported ∨ Unreported room op x y fault)
        ((x.ordered op' y).map .bool) :=
    ((ordered_meets op' x y).map fun b _ => Sound.bool b).imp_error fun _ => .inl
  have compared (op' : op = .equal ∨ op = .notEqual) :
      Meets (fun _ => True) (fun fault => fault.Reported ∨ Unreported room op x y fault)
        (x.equalWithin room y) := by
    rcases Nat.lt_or_ge room (x.comparedFrames y) with short | enough
    · rw [(equalWithin_needs x y).full short]
      exact .inr (.inr ⟨rfl, op', short⟩)
    · rw [(equalWithin_needs x y).fits enough]
      exact trivial
  unfold combine
  split
  · exact Sound.bool _
  · exact Sound.bool _
  · exact (compared (.inl rfl)).map fun b _ => Sound.bool b
  · exact (compared (.inr rfl)).map fun b _ => Sound.bool _
  · exact ordered .less
  · exact ordered .lessEqual
  · exact ordered .greater
  · exact ordered .greaterEqual
  · refine (arithmetic_meets op hx hy).imp_error fun fault h => h.imp_right fun exception => .inl ?_
    obtain ⟨undefined, other, undivided⟩ := exception
    have remainder : op = .remainder := by cases op <;> simp_all [exactOperators]
    exact ⟨undefined, remainder, undivided⟩

theorem signed_meets (negate : Bool) (text : String) {v : Value} (h : Sound R v) :
    Meets (Sound R) RenderFault.Reported (signed negate text v) := by
  cases h with
  | @int n fits =>
    cases negate with
    | false => exact Sound.int fits
    | true =>
      have extent : (-n).natAbs ≤ 2 ^ 63 := by
        rw [Int.natAbs_neg]
        exact Integer.natAbs_le_of_fits fits
      have checked := checkInteger_meets (.unary text) (Integer.writable_of_le extent (by decide))
      exact checked.map fun m hm => Sound.int hm
  | float x => cases negate <;> exact Sound.float _
  | null | bool | string | list | pair | mapping | record => exact rfl

theorem lookup_meets {scope : Scope} (h : scope.Sound R) (x : String) :
    Meets (Sound R) RenderFault.Reported (lookup scope x) := by
  unfold lookup
  split
  · rename_i v found
    exact h (x, v) (Value.mem_of_lookup found)
  · exact rfl

end Expr
end Stencil
