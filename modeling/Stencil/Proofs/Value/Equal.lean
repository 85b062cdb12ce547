import Stencil.Proofs.Expr.Integers
import Stencil.Proofs.Value.Overriding

/-! Equality of values without records. One layer of it looks at kinds, exact numbers, positions and
keys, and all the rest is left to the children; so it is symmetric and transitive, and only a NaN is
not equal to itself. -/
namespace Stencil
namespace Value

def Recordless (v : Value) : Prop := v.Sound fun _ => False

def children : Value → List Value
  | list items => items
  | pair a b => [a, b]
  | mapping entries => entries.map Prod.snd
  | _ => []

inductive Inside (a : Value) : Value → Prop where
  | self : Inside a a
  | child {v c : Value} : c ∈ v.children → Inside a c → Inside a v

/-- Parts of two values at the same place: lists have it by position, mappings by key. -/
inductive Facing (a b : Value) : Value → Value → Prop where
  | self : Facing a b a b
  | item {xs ys : List Value} {x y : Value} (i : Nat) : xs[i]? = some x → ys[i]? = some y →
      Facing a b x y → Facing a b (.list xs) (.list ys)
  | first {x x' y y' : Value} : Facing a b x y → Facing a b (.pair x x') (.pair y y')
  | second {x x' y y' : Value} : Facing a b x' y' → Facing a b (.pair x x') (.pair y y')
  | entry {es fs : List (String × Value)} {x y : Value} (key : String) : es.lookup key = some x →
      fs.lookup key = some y → Facing a b x y → Facing a b (.mapping es) (.mapping fs)

def Kind.Compared (j k : Kind) : Prop := j = k ∨ j ∈ [integer, float] ∧ k ∈ [integer, float]

instance (j k : Kind) : Decidable (j.Compared k) :=
  inferInstanceAs (Decidable (j = k ∨ j ∈ [.integer, .float] ∧ k ∈ [.integer, .float]))

inductive Matches (r : Value → Value → Prop) : Value → Value → Prop where
  | null : Matches r .null .null
  | bool (b : Bool) : Matches r (.bool b) (.bool b)
  | number {x y : Value} {q : Extended} : x.number? = some q → y.number? = some q → Matches r x y
  | string (s : String) : Matches r (.string s) (.string s)
  | list {xs ys : List Value} : List.Forall₂ r xs ys → Matches r (.list xs) (.list ys)
  | pair {a b c d : Value} : r a c → r b d → Matches r (.pair a b) (.pair c d)
  | mapping {es fs : List (String × Value)} :
      (∀ key, Option.Rel r (es.lookup key) (fs.lookup key)) →
      Matches r (.mapping es) (.mapping fs)

variable {r s t : Value → Value → Prop} {x y z a b : Value} {es fs : List (String × Value)}
    {key : String}

section Lookup

theorem lookup_of_mem (distinct : (es.map Prod.fst).Nodup) (h : (key, x) ∈ es) :
    es.lookup key = some x := by
  obtain ⟨before, after, rfl⟩ := List.append_of_mem h
  refine List.lookup_eq_some_iff.2 ⟨before, after, rfl,
    fun p earlier => bne_iff_ne.2 fun same => ?_⟩
  rw [List.map_append, List.nodup_append] at distinct
  exact distinct.2.2 p.1 (List.mem_map_of_mem earlier) key (by simp) same.symm

theorem lookup_perm (distinct : (es.map Prod.fst).Nodup) (h : es.Perm fs) (key : String) :
    es.lookup key = fs.lookup key := by
  have distinct' : (fs.map Prod.fst).Nodup := (h.map Prod.fst).nodup_iff.1 distinct
  refine Option.ext fun x => ⟨fun found => ?_, fun found => ?_⟩
  · exact lookup_of_mem distinct' (h.mem_iff.1 (mem_of_lookup found))
  · exact lookup_of_mem distinct (h.mem_iff.2 (mem_of_lookup found))

/-- Entries that look up alike have the same keys. -/
theorem keys_iff_of_rel (h : ∀ key, Option.Rel r (es.lookup key) (fs.lookup key)) (key : String) :
    key ∈ es.map Prod.fst ↔ key ∈ fs.map Prod.fst := by
  rw [← Context.isSome_lookup_iff, ← Context.isSome_lookup_iff]
  have related := h key
  generalize es.lookup key = found, fs.lookup key = found' at related ⊢
  cases related <;> rfl

theorem length_of_keys (distinct : (es.map Prod.fst).Nodup) (distinct' : (fs.map Prod.fst).Nodup)
    (h : ∀ key, key ∈ es.map Prod.fst ↔ key ∈ fs.map Prod.fst) : es.length = fs.length := by
  have perm := (List.perm_ext_iff_of_nodup distinct distinct').2 h
  simpa using perm.length_eq

/-- As many keys on both sides, and those of one side among those of the other, are the same
keys. -/
theorem keys_iff_of_subset (distinct : (es.map Prod.fst).Nodup) (length : es.length = fs.length)
    (h : es.map Prod.fst ⊆ fs.map Prod.fst) (key : String) : key ∈ es.map Prod.fst ↔
      key ∈ fs.map Prod.fst := by
  have perm := (List.subperm_of_subset distinct h).perm_of_length_le (by simp [length])
  exact perm.mem_iff

theorem rel_lookup_iff : Option.Rel r (es.lookup key) (fs.lookup key) ↔
    (key ∈ es.map Prod.fst ↔ key ∈ fs.map Prod.fst) ∧
      ∀ x y, es.lookup key = some x → fs.lookup key = some y → r x y := by
  rw [← Context.isSome_lookup_iff, ← Context.isSome_lookup_iff]
  cases es.lookup key <;> cases fs.lookup key <;> simp

end Lookup

section Layer

theorem sameAll_iff {xs ys : List Value} :
    sameAll xs ys = true ↔ List.Forall₂ (fun a b => a.same b = true) xs ys := by
  induction xs generalizing ys with
  | nil => cases ys <;> simp [sameAll]
  | cons x xs ih => cases ys <;> simp [sameAll, ih]

theorem sameEntries_iff : sameEntries es fs = true ↔
    ∀ e ∈ es, ∃ y, fs.lookup e.1 = some y ∧ e.2.same y = true := by
  induction es with
  | nil => simp [sameEntries]
  | cons e rest ih =>
    obtain ⟨key, x⟩ := e
    rw [sameEntries, Bool.and_eq_true, ih, List.forall_mem_cons]
    cases fs.lookup key <;> simp

theorem same_mapping_iff (distinct : (es.map Prod.fst).Nodup)
    (distinct' : (fs.map Prod.fst).Nodup) :
    (mapping es).same (mapping fs) = true ↔
      ∀ key, Option.Rel (fun a b => a.same b = true) (es.lookup key) (fs.lookup key) := by
  rw [same, Bool.and_eq_true, beq_iff_eq, sameEntries_iff]
  constructor
  · rintro ⟨length, equal⟩ key
    have among : es.map Prod.fst ⊆ fs.map Prod.fst := by
      intro name member
      obtain ⟨e, inside, rfl⟩ := List.mem_map.1 member
      obtain ⟨y, found, -⟩ := equal e inside
      exact Context.isSome_lookup_iff.1 (Option.isSome_of_mem found)
    refine rel_lookup_iff.2 ⟨keys_iff_of_subset distinct length among key, fun x y here there => ?_⟩
    obtain ⟨y', found, same⟩ := equal (key, x) (mem_of_lookup here)
    obtain rfl : y = y' := Option.some.inj (there.symm.trans found)
    exact same
  · intro equal
    refine ⟨length_of_keys distinct distinct' (keys_iff_of_rel equal), fun e inside => ?_⟩
    have related := equal e.1
    rw [lookup_of_mem distinct inside] at related
    generalize fs.lookup e.1 = found at related ⊢
    cases related with
    | some same => exact ⟨_, rfl, same⟩

theorem same_int_iff {m : Int} : (int m).same y = true ↔ y.number? = some (.ofInt m) := by
  cases y with
  | int n => simpa [same, number?, Extended.ofInt] using @eq_comm Int m n
  | float v => simp [same, number?]
  | null | bool | string | list | pair | mapping | record => simp [same, number?]

theorem same_float_iff {u : Float} :
    (float u).same y = true ↔ ∃ q, Extended.ofFloat? u = some q ∧ y.number? = some q := by
  cases y with
  | int n => simp [same, number?]
  | float v =>
    rw [same, number?]
    cases Extended.ofFloat? u with
    | none => simp
    | some p =>
      cases Extended.ofFloat? v with
      | none => simp
      | some q => simpa using @eq_comm Extended p q
  | null | bool | string | list | pair | mapping | record => simp [same, number?]

/-- Equality is one layer of itself. -/
theorem same_iff_matches (hx : x.Recordless) (hy : y.Recordless) :
    x.same y = true ↔ Matches (fun a b => a.same b = true) x y := by
  constructor
  · intro h
    cases hx with
    | int _ => exact .number rfl (same_int_iff.1 h)
    | float u =>
      obtain ⟨q, left, right⟩ := same_float_iff.1 h
      exact .number left right
    | null => cases y <;> first | exact .null | cases h
    | bool b => cases y <;> simp [same] at h; exact h ▸ .bool b
    | string t => cases y <;> simp [same] at h; exact h ▸ .string t
    | list _ => cases y <;> simp [same] at h; exact .list (sameAll_iff.1 h)
    | pair _ _ => cases y <;> simp [same] at h; exact .pair h.1 h.2
    | mapping distinct _ =>
      cases hy with
      | mapping distinct' _ => exact .mapping ((same_mapping_iff distinct distinct').1 h)
      | null | bool | int | float | string | list | pair | record => simp [same] at h
    | record impossible => exact impossible.elim
  · intro h
    cases h with
    | null => rfl
    | bool b => simp [same]
    | @number _ _ q left right =>
      cases x with
      | int m => exact same_int_iff.2 (right.trans left.symm)
      | float u => exact same_float_iff.2 ⟨q, left, right⟩
      | null | bool | string | list | pair | mapping | record => cases left
    | string t => simp [same]
    | list each => exact sameAll_iff.2 each
    | pair first second => simp [same, first, second]
    | mapping each =>
      exact (same_mapping_iff (sound_mapping_iff.1 hx).1 (sound_mapping_iff.1 hy).1).2 each

end Layer

section Whole

theorem Recordless.child (h : x.Recordless) {c : Value} (hc : c ∈ x.children) : c.Recordless := by
  cases h with
  | list each => exact each c hc
  | @pair a b first second =>
    obtain rfl | rfl : c = a ∨ c = b := by simpa [children] using hc
    · exact first
    · exact second
  | mapping _ each =>
    obtain ⟨e, inside, rfl⟩ := List.mem_map.1 hc
    exact each e inside
  | record impossible => exact impossible.elim
  | null | bool | int | float | string => cases hc

/-- Induction over the children. -/
theorem Recordless.induction {motive : (x : Value) → x.Recordless → Prop}
    (step : ∀ (v : Value) (h : v.Recordless), (∀ c (hc : c ∈ v.children), motive c (h.child hc)) →
      motive v h)
    (x : Value) (h : x.Recordless) : motive x h := by
  unfold Recordless at h
  induction h with
  | list each ih => exact step _ (.list each) ih
  | @pair a b first second ih ih' =>
    refine step _ (.pair first second) fun c hc => ?_
    obtain rfl | rfl : c = a ∨ c = b := by simpa [children] using hc
    · exact ih
    · exact ih'
  | mapping distinct each ih =>
    refine step _ (.mapping distinct each) fun c hc => ?_
    obtain ⟨e, inside, rfl⟩ := List.mem_map.1 hc
    exact ih e inside
  | record impossible => exact impossible.elim
  | null => exact step _ .null nofun
  | bool b => exact step _ (.bool b) nofun
  | int fits => exact step _ (.int fits) nofun
  | float u => exact step _ (.float u) nofun
  | string t => exact step _ (.string t) nofun

theorem mem_children_of_lookup (h : es.lookup key = some x) : x ∈ (mapping es).children :=
  List.mem_map_of_mem (mem_of_lookup h)

theorem Matches.symm (h : Matches r x y)
    (back : ∀ a ∈ x.children, ∀ b ∈ y.children, r a b → s b a) : Matches s y x := by
  cases h with
  | null => exact .null
  | bool b => exact .bool b
  | number left right => exact .number right left
  | string t => exact .string t
  | list each =>
    obtain ⟨length, each⟩ := List.forall₂_iff_get.1 each
    exact .list (List.forall₂_iff_get.2 ⟨length.symm, fun i hy hx =>
      back _ (List.get_mem _ _) _ (List.get_mem _ _) (each i hx hy)⟩)
  | pair first second =>
    exact .pair (back _ (by simp [children]) _ (by simp [children]) first)
      (back _ (by simp [children]) _ (by simp [children]) second)
  | @mapping es fs each =>
    refine .mapping fun key => ?_
    have related := each key
    generalize here : es.lookup key = u, there : fs.lookup key = v at related ⊢
    cases related with
    | none => exact .none
    | some equal =>
      exact .some (back _ (mem_children_of_lookup here) _ (mem_children_of_lookup there) equal)

theorem Matches.trans (first : Matches r x y) (second : Matches s y z)
    (both : ∀ a ∈ x.children, ∀ b ∈ y.children, ∀ c ∈ z.children, r a b → s b c → t a c) :
    Matches t x z := by
  cases second with
  | @number _ _ q middle right =>
    cases first with
    | number left middle' => exact .number left (right.trans (middle.symm.trans middle'))
    | null | bool | string | list | pair | mapping => cases middle
  | null => cases first with | null => exact .null | number _ impossible => cases impossible
  | bool b => cases first with | bool => exact .bool b | number _ impossible => cases impossible
  | string t =>
    cases first with
    | string => exact .string t
    | number _ impossible => cases impossible
  | list each' =>
    cases first with
    | number _ impossible => cases impossible
    | list each =>
      obtain ⟨length, each⟩ := List.forall₂_iff_get.1 each
      obtain ⟨length', each'⟩ := List.forall₂_iff_get.1 each'
      exact .list (List.forall₂_iff_get.2 ⟨length.trans length', fun i hx hz =>
        both _ (List.get_mem _ _) _ (List.get_mem _ _) _ (List.get_mem _ _)
          (each i hx (length ▸ hx))
          (each' i (length ▸ hx) hz)⟩)
  | pair equal₁ equal₂ =>
    cases first with
    | number _ impossible => cases impossible
    | pair equal equal' =>
      exact .pair (both _ (by simp [children]) _ (by simp [children]) _ (by simp [children])
        equal equal₁)
        (both _ (by simp [children]) _ (by simp [children]) _ (by simp [children]) equal' equal₂)
  | @mapping fs gs each' =>
    cases first with
    | number _ impossible => cases impossible
    | @mapping es _ each =>
      refine .mapping fun key => ?_
      have left := each key
      have right := each' key
      generalize here : es.lookup key = u, middle : fs.lookup key = v, there : gs.lookup key =
        w at left right ⊢
      cases left with
      | none => cases right with | none => exact .none
      | some equal =>
        cases right with
        | some equal' =>
          exact .some (both _ (mem_children_of_lookup here) _ (mem_children_of_lookup middle) _
            (mem_children_of_lookup there) equal equal')

theorem same_symm (hx : x.Recordless) (hy : y.Recordless) (h : x.same y = true) :
    y.same x = true := by
  induction x, hx using Recordless.induction generalizing y with
  | step x hx ih =>
    have layer := (same_iff_matches hx hy).1 h
    exact (same_iff_matches hy hx).2 (layer.symm fun a ha b hb => ih a ha (hy.child hb))

theorem same_trans (hx : x.Recordless) (hy : y.Recordless) (hz : z.Recordless) (h : x.same y = true)
    (h' : y.same z = true) : x.same z = true := by
  induction x, hx using Recordless.induction generalizing y z with
  | step x hx ih =>
    have layer := (same_iff_matches hx hy).1 h
    have layer' := (same_iff_matches hy hz).1 h'
    exact (same_iff_matches hx hz).2
      (layer.trans layer' fun a ha b hb c hc => ih a ha (hy.child hb) (hz.child hc))

theorem ofFloat?_eq_none_iff {u : Float} : Extended.ofFloat? u = none ↔
    Binary64.parts u = .nan := by
  rw [Extended.ofFloat?]
  split <;> simp_all

theorem matches_self_iff (h : x.Recordless) : Matches r x x ↔
    (∀ u, x = .float u → Binary64.parts u ≠ .nan) ∧ ∀ c ∈ x.children, r c c := by
  cases h with
  | null => simp [children, Matches.null]
  | bool b => simp [children, Matches.bool]
  | @int m _ =>
    have equal : Matches r (.int m) (.int m) := .number rfl rfl
    simp [children, equal]
  | string t => simp [children, Matches.string]
  | float u =>
    constructor
    · rintro (_ | _ | left)
      refine ⟨fun v whole nan => ?_, by simp [children]⟩
      obtain rfl := Value.float.inj whole
      rw [number?, ofFloat?_eq_none_iff.2 nan] at left
      cases left
    · intro h
      obtain ⟨q, found⟩ := Option.ne_none_iff_exists'.1 (mt ofFloat?_eq_none_iff.1 (h.1 u rfl))
      exact .number found found
  | list _ =>
    refine ⟨fun layer => ⟨by simp, ?_⟩, fun h => .list (List.forall₂_same.2 h.2)⟩
    cases layer with
    | number impossible _ => cases impossible
    | list each => exact List.forall₂_same.1 each
  | pair _ _ =>
    refine ⟨fun layer => ⟨by simp, ?_⟩,
      fun h => .pair (h.2 _ (by simp [children])) (h.2 _ (by simp [children]))⟩
    cases layer with
    | number impossible _ => cases impossible
    | pair equal equal' => simpa [children] using ⟨equal, equal'⟩
  | @mapping es distinct _ =>
    refine ⟨fun layer => ⟨by simp, fun c hc => ?_⟩, fun h => .mapping fun key => ?_⟩
    · cases layer with
      | number impossible _ => cases impossible
      | mapping each =>
        obtain ⟨e, inside, rfl⟩ := List.mem_map.1 hc
        have related := each e.1
        rw [lookup_of_mem distinct inside] at related
        cases related with | some equal => exact equal
    · cases found : es.lookup key with
      | none => exact .none
      | some c => exact .some (h.2 c (mem_children_of_lookup found))
  | record impossible => exact impossible.elim

theorem inside_iff : Inside a x ↔ a = x ∨ ∃ c ∈ x.children, Inside a c := by
  constructor
  · intro h
    cases h with
    | self => exact .inl rfl
    | child hc inner => exact .inr ⟨_, hc, inner⟩
  · rintro (rfl | ⟨c, hc, inner⟩)
    · exact .self
    · exact .child hc inner

/-- A value is equal to itself unless a NaN is somewhere inside of it. -/
theorem same_self_iff (h : x.Recordless) :
    x.same x = true ↔ ∀ u, Inside (.float u) x → Binary64.parts u ≠ .nan := by
  induction x, h using Recordless.induction with
  | step x hx ih =>
    have inner : (∀ c ∈ x.children, c.same c = true) ↔
        ∀ c ∈ x.children, ∀ u, Inside (.float u) c → Binary64.parts u ≠ .nan :=
      forall₂_congr ih
    rw [same_iff_matches hx hx, matches_self_iff hx, inner]
    constructor
    · rintro ⟨outer, inner⟩ u inside
      rcases inside_iff.1 inside with whole | ⟨c, hc, inside⟩
      · exact outer u whole.symm
      · exact inner c hc u inside
    · intro h
      exact ⟨fun u whole => h u (whole ▸ .self), fun c hc u inside => h u (.child hc inside)⟩

/-- Equal values are equal at every place. -/
theorem same_of_facing (h : Facing a b x y) (equal : x.same y = true) : a.same b = true := by
  induction h with
  | self => exact equal
  | item i here there _ ih =>
    obtain ⟨hx, rfl⟩ := List.getElem?_eq_some_iff.1 here
    obtain ⟨hy, rfl⟩ := List.getElem?_eq_some_iff.1 there
    exact ih ((List.forall₂_iff_get.1 (sameAll_iff.1 equal)).2 i hx hy)
  | first _ ih => exact ih (Bool.and_eq_true_iff.1 equal).1
  | second _ ih => exact ih (Bool.and_eq_true_iff.1 equal).2
  | entry key here there _ ih =>
    obtain ⟨y, found, equal⟩ :=
      sameEntries_iff.1 (Bool.and_eq_true_iff.1 equal).2 _ (mem_of_lookup here)
    obtain rfl := Option.some.inj (there.symm.trans found)
    exact ih equal

theorem Matches.compared (h : Matches r x y) : x.kind.Compared y.kind := by
  cases h with
  | number left right =>
    have numeric {v : Value} {q : Extended} (h : v.number? = some q) :
        v.kind ∈ [Kind.integer, .float] := by
      cases v with
      | int | float => simp [kind]
      | null | bool | string | list | pair | mapping | record => cases h
    exact .inr ⟨numeric left, numeric right⟩
  | null | bool | string | list | pair | mapping => exact .inl rfl

theorem Facing.recordless (h : Facing a b x y) (hx : x.Recordless) (hy : y.Recordless) :
    a.Recordless ∧ b.Recordless := by
  induction h with
  | self => exact ⟨hx, hy⟩
  | item i here there _ ih =>
    exact ih (hx.child (List.mem_of_getElem? here)) (hy.child (List.mem_of_getElem? there))
  | first _ ih => exact ih (hx.child (by simp [children])) (hy.child (by simp [children]))
  | second _ ih => exact ih (hx.child (by simp [children])) (hy.child (by simp [children]))
  | entry key here there _ ih =>
    exact ih (hx.child (mem_children_of_lookup here)) (hy.child (mem_children_of_lookup there))

theorem Matches.of_lookup (h : Matches r (.mapping es) y)
    (alike : ∀ key, es.lookup key = fs.lookup key) :
    Matches r (.mapping fs) y := by
  cases h with
  | number impossible _ => cases impossible
  | mapping each => exact .mapping fun key => alike key ▸ each key

theorem same_perm (hx : (mapping es).Recordless) (hy : y.Recordless) (h : es.Perm fs) :
    (mapping fs).same y = (mapping es).same y := by
  obtain ⟨distinct, each⟩ := sound_mapping_iff.1 hx
  have alike := lookup_perm distinct h
  have hx' : (mapping fs).Recordless :=
    .mapping ((h.map Prod.fst).nodup_iff.1 distinct) fun e inside => each e (h.mem_iff.2 inside)
  rw [Bool.eq_iff_iff, same_iff_matches hx hy, same_iff_matches hx' hy]
  exact ⟨fun layer => layer.of_lookup fun key => (alike key).symm,
    fun layer => layer.of_lookup alike⟩

end Whole

end Value

/-- Equality of values without records, and what the two operators make of it as far as the stack
has room. Booleans and numbers are not compared, nor are lists and pairs. -/
theorem Expr.eval_equal {x y z : Value} (hx : x.Recordless) (hy : y.Recordless)
    (hz : z.Recordless) :
    x.same y = y.same x ∧
    (x.same y = true → y.same z = true → x.same z = true) ∧
    (x.same x = true ↔ ∀ u, Value.Inside (.float u) x → Binary64.parts u ≠ .nan) ∧
    (∀ a b, Value.Facing a b x y → ¬a.kind.Compared b.kind → x.same y = false) ∧
    (∀ es fs, x = .mapping es → y = .mapping fs →
      (x.same y = true ↔ (∀ key, key ∈ es.map Prod.fst ↔ key ∈ fs.map Prod.fst) ∧
        ∀ key a b, es.lookup key = some a → fs.lookup key = some b → a.same b = true)) ∧
    (∀ es fs, x = .mapping es → es.Perm fs → (Value.mapping fs).same y = x.same y) ∧
    ∀ (g : Globals) (scope : Scope) (site : Site) (left right : Expr) (u v : Value) (p : Nat),
      left.eval g scope (site.part 0) = .ok u → right.eval g scope (site.part 1) = .ok v →
        if u.comparedFrames v ≤ g.room then
          (binary p .equal left right).eval g scope site = .ok (.bool (u.same v)) ∧
          (binary p .notEqual left right).eval g scope site = .ok (.bool (!u.same v))
        else
          (binary p .equal left right).eval g scope site = .error .stackFull ∧
          (binary p .notEqual left right).eval g scope site = .error .stackFull := by
  refine ⟨?_, Value.same_trans hx hy hz, Value.same_self_iff hx, fun a b facing apart => ?_,
    ?_, ?_, ?_⟩
  · exact Bool.eq_iff_iff.2 ⟨Value.same_symm hx hy, Value.same_symm hy hx⟩
  · refine Bool.eq_false_iff.2 fun equal => apart ?_
    obtain ⟨ha, hb⟩ := facing.recordless hx hy
    exact ((Value.same_iff_matches ha hb).1 (Value.same_of_facing facing equal)).compared
  · rintro es fs rfl rfl
    rw [Value.same_mapping_iff (Value.sound_mapping_iff.1 hx).1 (Value.sound_mapping_iff.1 hy).1]
    exact (forall_congr' fun key => Value.rel_lookup_iff).trans forall_and
  · rintro es fs rfl perm
    exact Value.same_perm hx hy perm
  · intro g scope site left right u v p first second
    rw [eval_binary first second (by decide) (by decide),
      eval_binary first second (by decide) (by decide)]
    have walk := Value.equalWithin_needs u v
    split
    · rename_i enough
      simp [combine, walk.fits enough]
    · rename_i short
      simp [combine, walk.full (Nat.lt_of_not_le short)]

/-- One and `1.0` under another order of keys, and `true` and a NaN in their places. -/
theorem Expr.eval_equal_entries :
    ∃ x y z : Value, x.Recordless ∧ y.Recordless ∧ z.Recordless ∧ x.same y = true ∧
      y.same x = true ∧
      x.same x = true ∧ z.same z = false ∧ x.same z = false := by
  let one := Float.ofBits 0x3FF0000000000000
  let nan := Float.ofBits 0x7FF8000000000000
  let x : Value := .mapping [("a", .int 1), ("b", .list [.int 1])]
  let y : Value := .mapping [("b", .list [.float one]), ("a", .float one)]
  let z : Value := .mapping [("a", .float nan), ("b", .list [.bool true])]
  have hx : x.Recordless :=
    .mapping (by decide) (by simp [Value.sound_list_iff, Value.sound_int_iff]; decide)
  have hy : y.Recordless := .mapping (by decide) (by simp [Value.sound_list_iff, Value.Sound.float])
  have hz : z.Recordless :=
    .mapping (by decide) (by simp [Value.sound_list_iff, Value.Sound.float, Value.Sound.bool])
  obtain ⟨symm, -⟩ := eval_equal hx hy hz
  obtain ⟨-, -, reflexive, apart, -⟩ := eval_equal hx hz hz
  obtain ⟨-, -, reflexive', -⟩ := eval_equal hz hz hz
  have equal : x.same y = true := by decide +kernel
  refine ⟨x, y, z, hx, hy, hz, equal, symm ▸ equal, by decide, ?_,
    apart (.int 1) (.bool true) ?_ (by decide)⟩
  · refine Bool.eq_false_iff.2 fun equal => reflexive'.1 equal nan ?_ (by decide)
    exact .child (List.mem_cons_self) .self
  · exact .entry "b" rfl rfl (.item 0 rfl rfl .self)

end Stencil
