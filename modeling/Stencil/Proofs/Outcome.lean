/-! Steps that may fail, taken one after another: when a whole row of them succeeds. -/
namespace Stencil.Outcome
variable {ε ε' α β γ : Type}

@[simp] theorem ok_bind (a : α) (f : α → Except ε β) : (Except.ok a >>= f) = f a := rfl

@[simp] theorem error_bind (e : ε) (f : α → Except ε β) : (Except.error e >>= f) = .error e := rfl

@[simp] theorem pure_eq_ok (a : α) : (pure a : Except ε α) = .ok a := rfl

@[simp] theorem map_ok (a : α) (f : α → β) : (Except.ok a : Except ε α).map f = .ok (f a) := rfl

@[simp] theorem map_error (e : ε) (f : α → β) : (Except.error e : Except ε α).map f = .error e :=
  rfl

@[simp] theorem bind_eq_ok_iff {x : Except ε α} {f : α → Except ε β} {b : β} :
    x >>= f = .ok b ↔ ∃ a, x = .ok a ∧ f a = .ok b := by
  cases x <;> simp

@[simp] theorem map_eq_ok_iff {x : Except ε α} {f : α → β} {b : β} :
    x.map f = .ok b ↔ ∃ a, x = .ok a ∧ f a = b := by
  cases x <;> simp

theorem map_eq_error_iff {x : Except ε α} {f : α → β} {e : ε} : x.map f = .error e ↔
    x = .error e := by
  cases x <;> simp

/-- An outcome seen through a view of faults and a view of results. -/
def bimap (f : ε → ε') (g : α → β) : Except ε α → Except ε' β
  | .ok a => .ok (g a)
  | .error e => .error (f e)

@[simp] theorem bimap_ok (f : ε → ε') (g : α → β) (a : α) : bimap f g (.ok a) = .ok (g a) := rfl

@[simp] theorem bimap_error (f : ε → ε') (g : α → β) (e : ε) :
    bimap f g (.error e) = .error (f e) := rfl

/-- Views can be taken step by step. -/
theorem bimap_bind {δ : Type} {f : ε → ε'} {g : α → β} {h : γ → δ} {x : Except ε α}
    {x' : Except ε' β} {k : α → Except ε γ} {k' : β → Except ε' δ} (hx : bimap f g x = x')
    (hk : ∀ a, bimap f h (k a) = k' (g a)) :
    bimap f h (x >>= k) = x' >>= k' := by
  subst hx
  cases x with
  | ok a => exact hk a
  | error e => rfl

/-- Outcomes that look alike are the same result, or two faults that look alike. -/
theorem ok_or_error_of_bimap {f : ε → ε'} {x y : Except ε α} (h : bimap f id x = bimap f id y) :
    (∃ a, x = .ok a ∧ y = .ok a) ∨ ∃ e e', x = .error e ∧ y = .error e' ∧ f e = f e' := by
  cases x with
  | ok a =>
    cases y with
    | ok b => exact .inl ⟨a, rfl, congrArg _ (Except.ok.inj h).symm⟩
    | error e' => cases h
  | error e =>
    cases y with
    | ok b => cases h
    | error e' => exact .inr ⟨e, e', rfl, rfl, Except.error.inj h⟩

/-- Steps that are viewed alike stay so if what follows them does. -/
theorem bimap_bind_congr {δ : Type} {f : ε → ε'} {h : γ → δ} {x y : Except ε α}
    {k l : α → Except ε γ} (hx : bimap f id x = bimap f id y)
    (hk : ∀ a, bimap f h (k a) = bimap f h (l a)) :
    bimap f h (x >>= k) = bimap f h (y >>= l) := by
  obtain ⟨a, rfl, rfl⟩ | ⟨e, e', rfl, rfl, same⟩ := ok_or_error_of_bimap hx
  · exact hk a
  · exact congrArg Except.error same

/-- What is made of a result does not touch the faults. -/
theorem bimap_map (f : ε → ε') (x : Except ε α) (k : α → β) :
    bimap f id (x.map k) = (bimap f id x).map k := by
  cases x <;> rfl

/-- The result without its view of the faults. -/
theorem toOption_of_bimap {f : ε → ε'} {g : α → β} {x : Except ε α} {x' : Except ε' β}
    (h : bimap f g x = x') :
    x.toOption.map g = x'.toOption := by
  subst h
  cases x <;> rfl

theorem toOption_bind {δ : Type} {g : α → β} {h : γ → δ} {x : Except ε α} {y : Option β}
    {k : α → Except ε γ}
    {k' : β → Option δ} (hx : x.toOption.map g = y) (hk : ∀ a, (k a).toOption.map h = k' (g a)) :
    (x >>= k).toOption.map h = y.bind k' := by
  subst hx
  cases x with
  | ok a => exact hk a
  | error e => rfl

theorem eq_ok_of_toOption {x : Except ε α} {a : α} (h : x.toOption = some a) : x = .ok a := by
  cases x with
  | ok b => exact congrArg _ (Option.some.inj h)
  | error e => cases h

section Meets

def Meets (good : α → Prop) (bad : ε → Prop) : Except ε α → Prop
  | .ok a => good a
  | .error e => bad e

variable {good : α → Prop} {good' : β → Prop} {bad : ε → Prop} {x : Except ε α}

@[simp] theorem meets_ok (a : α) : Meets good bad (.ok a) ↔ good a := Iff.rfl

@[simp] theorem meets_error (e : ε) : Meets good bad (.error e) ↔ bad e := Iff.rfl

theorem meets_any (x : Except ε α) : Meets (fun _ => True) (fun _ => True) x := by
  cases x <;> exact trivial

/-- What follows may use what came out before. -/
theorem Meets.bind_eq {f : α → Except ε β} (h : Meets good bad x)
    (hf : ∀ a, x = .ok a → good a → Meets good' bad (f a)) : Meets good' bad (x >>= f) := by
  cases x with
  | ok a => exact hf a rfl h
  | error e => exact h

theorem Meets.bind {f : α → Except ε β} (h : Meets good bad x)
    (hf : ∀ a, good a → Meets good' bad (f a)) :
    Meets good' bad (x >>= f) := h.bind_eq fun a _ => hf a

theorem Meets.map {f : α → β} (h : Meets good bad x) (hf : ∀ a, good a → good' (f a)) :
    Meets good' bad (x.map f) := by
  cases x with
  | ok a => exact hf a h
  | error e => exact h

theorem Meets.imp {good' : α → Prop} {bad' : ε → Prop} (h : Meets good bad x)
    (hg : ∀ a, good a → good' a) (hb : ∀ e, bad e → bad' e) : Meets good' bad' x := by
  cases x with
  | ok a => exact hg a h
  | error e => exact hb e h

theorem Meets.imp_error {bad' : ε → Prop} (h : Meets good bad x) (hb : ∀ e, bad e → bad' e) :
    Meets good bad' x := h.imp (fun _ good => good) hb

end Meets

section Paired
variable {δ : Type}

inductive Paired (R : α → β → Prop) : Except ε α → Except ε β → Prop where
  | ok {a : α} {b : β} : R a b → Paired R (.ok a) (.ok b)
  | error (e : ε) : Paired R (.error e) (.error e)

variable {R : α → β → Prop} {S : γ → δ → Prop} {x : Except ε α} {y : Except ε β}

theorem Paired.bind {f : α → Except ε γ} {g : β → Except ε δ} (h : Paired R x y)
    (hf : ∀ a b, R a b → Paired S (f a) (g b)) : Paired S (x >>= f) (y >>= g) := by
  cases h with
  | ok hab => exact hf _ _ hab
  | error e => exact .error e

theorem Paired.map {f : α → γ} {g : β → δ} (h : Paired R x y) (hf : ∀ a b, R a b → S (f a) (g b)) :
    Paired S (x.map f) (y.map g) := by
  cases h with
  | ok hab => exact .ok (hf _ _ hab)
  | error e => exact .error e

theorem Paired.eq {x y : Except ε α} (h : Paired Eq x y) : x = y := by
  cases h with
  | ok same => rw [same]
  | error e => rfl

/-- An outcome beside itself, if its result may stand beside itself. -/
theorem Paired.self {R : α → α → Prop} {x : Except ε α} (h : ∀ a, x = .ok a → R a a) :
    Paired R x x := by
  cases x with
  | ok a => exact .ok (h a rfl)
  | error e => exact .error e

end Paired

section Row
variable {f : α → Option β}

theorem mapM_cons_eq_some_iff {a : α} {as : List α} {bs : List β} :
    (a :: as).mapM f = some bs ↔
      ∃ b rest, f a = some b ∧ as.mapM f = some rest ∧ bs = b :: rest := by
  simp only [List.mapM_cons, Option.bind_eq_bind, Option.bind_eq_some_iff, Option.pure_def,
    Option.some.injEq]
  constructor
  · intro given
    obtain ⟨b, first, rest, others, rfl⟩ := given
    exact ⟨b, rest, first, others, rfl⟩
  · intro given
    obtain ⟨b, rest, first, others, rfl⟩ := given
    exact ⟨b, first, rest, others, rfl⟩

theorem mapM_append_eq_some_iff {u v : List α} {bs : List β} :
    (u ++ v).mapM f = some bs ↔
      ∃ first rest, u.mapM f = some first ∧ v.mapM f = some rest ∧ bs = first ++ rest := by
  simp only [List.mapM_append, Option.bind_eq_bind, Option.bind_eq_some_iff, Option.pure_def,
    Option.some.injEq]
  constructor
  · rintro ⟨first, hu, rest, hv, rfl⟩
    exact ⟨first, rest, hu, hv, rfl⟩
  · rintro ⟨first, rest, hu, hv, rfl⟩
    exact ⟨first, hu, rest, hv, rfl⟩

theorem mapM_of_forall {g : α → β} {as : List α} (h : ∀ a ∈ as, f a = some (g a)) :
    as.mapM f = some (as.map g) := by
  induction as with
  | nil => rfl
  | cons a as ih =>
    obtain ⟨first, others⟩ := List.forall_mem_cons.1 h
    exact mapM_cons_eq_some_iff.2 ⟨g a, as.map g, first, ih others, rfl⟩

theorem exists_mapM {as : List α} (h : ∀ a ∈ as, ∃ b, f a = some b) :
    ∃ bs, as.mapM f = some bs := by
  induction as with
  | nil => exact ⟨[], rfl⟩
  | cons a as ih =>
    obtain ⟨⟨b, first⟩, others⟩ := List.forall_mem_cons.1 h
    obtain ⟨bs, rest⟩ := ih others
    exact ⟨b :: bs, mapM_cons_eq_some_iff.2 ⟨b, bs, first, rest, rfl⟩⟩

/-- Every result of a row comes from one of its steps. -/
theorem exists_of_mapM {as : List α} {bs : List β} (h : as.mapM f = some bs) {b : β} (hb : b ∈ bs) :
    ∃ a ∈ as, f a = some b := by
  induction as generalizing bs with
  | nil =>
    cases h
    cases hb
  | cons a as ih =>
    obtain ⟨first, rest, hfirst, hrest, rfl⟩ := mapM_cons_eq_some_iff.1 h
    rcases List.mem_cons.1 hb with rfl | later
    · exact ⟨a, List.mem_cons_self, hfirst⟩
    · obtain ⟨a', hmem, ha'⟩ := ih hrest later
      exact ⟨a', List.mem_cons_of_mem a hmem, ha'⟩

end Row

end Stencil.Outcome
