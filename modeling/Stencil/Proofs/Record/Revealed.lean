import Stencil.Proofs.Document.Paired
import Stencil.Proofs.Record.Veiled

/-! What a template can get at, and what it makes of two contexts that are the same but for what is
covered: if nothing under the veil is ever read, the same. -/
namespace Stencil
open Outcome

/-- What a template can get of a record: what its fields hold that can be read, and what its methods
return that take the place of something else. -/
inductive Record.Shows : Record → Host → Prop where
  | field (i : Identity) (face : Face) {fields : List (String × Host)}
      {allowed : Option (List String)}
      {attributes : List (String × Host)} {name : String} {x : Host} :
      isVisible fields allowed attributes name = .ok true →
      attribute? fields attributes name = some x →
      Shows (.fields i face fields allowed attributes) x
  | returned (i : Identity) (face : Face) {fields : List (String × Host)}
      {allowed : Option (List String)}
      {attributes : List (String × Host)} {name : String} {x : Host} :
      name ∈ ownNames → attribute? fields attributes name = some (.method x) →
      Shows (.fields i face fields allowed attributes) x
  | entry (i : Identity) {fields : List (String × Host)} {name : String} {x : Host} :
      last? fields name = some x → Shows (.table i fields) x
  | column (i : Identity) {subject : Instance} {included : List String} {name : String} {x : Host} :
      last? subject.columns name = some x → Shows (.model i subject included) x
  | one (i j : Identity) {subject other : Instance} {included : List String} {name : String} :
      included.contains name = true → subject.relations.lookup name = some (.one other) →
      Shows (.model i subject included) (.record (.model j other []))
  | many (i j : Identity) {subject other : Instance} {others : List Instance}
      {included : List String}
      {name : String} : included.contains name = true →
      subject.relations.lookup name = some (.many others) →
      other ∈ others → Shows (.model i subject included) (.record (.model j other []))

inductive Host.Reveals : Host → Record → Prop where
  | record (r : Record) : Reveals (.record r) r
  | shown {r s : Record} {x : Host} : r.Shows x → Reveals x s → Reveals (.record r) s
  | list {items : List Host} {x : Host} {r : Record} :
      x ∈ items → Reveals x r → Reveals (.list items) r
  | tuple {items : List Host} {x : Host} {r : Record} :
      x ∈ items → Reveals x r → Reveals (.tuple items) r
  | first {a : Host} (b : Host) {r : Record} : Reveals a r → Reveals (.pair a b) r
  | second (a : Host) {b : Host} {r : Record} : Reveals b r → Reveals (.pair a b) r
  | entry {entries : List (Host × Host)} {key x : Host} {r : Record} :
      (key, x) ∈ entries → Reveals x r →
      Reveals (.mapping entries) r
  | standIn (face : Face) {x : Host} {r : Record} : Reveals x r → Reveals (.standIn face x) r
  | provider (face : Face) {x : Host} {r : Record} : Reveals x r → Reveals (.provider face x) r
  | method {x : Host} {r : Record} : Reveals x r → Reveals (.method x) r

def Record.Closed (S : Record → Prop) : Prop := ∀ r x s, S r → r.Shows x → x.Reveals s → S s

theorem Host.Reveals.step {x y : Host} {r s : Record} (h : x.Reveals r) (shows : r.Shows y)
    (found : y.Reveals s) : x.Reveals s := by
  induction h with
  | record r => exact .shown shows found
  | shown between _ ih => exact .shown between (ih shows)
  | list member _ ih => exact .list member (ih shows)
  | tuple member _ ih => exact .tuple member (ih shows)
  | first b _ ih => exact .first b (ih shows)
  | second a _ ih => exact .second a (ih shows)
  | entry member _ ih => exact .entry member (ih shows)
  | standIn name _ ih => exact .standIn name (ih shows)
  | provider name _ ih => exact .provider name (ih shows)
  | method _ ih => exact .method (ih shows)

def Context.Reveals (data : Option Host) (named : List (String × Host)) (r : Record) : Prop :=
  (∃ x, data = some x ∧ x.Reveals r) ∨ ∃ v ∈ named, v.2.Reveals r

theorem Context.closed_reveals (data : Option Host) (named : List (String × Host)) :
    Record.Closed (Reveals data named) := by
  intro r x s seen shows found
  rcases seen with ⟨y, given, there⟩ | ⟨v, given, there⟩
  · exact .inl ⟨y, given, there.step shows found⟩
  · exact .inr ⟨v, given, there.step shows found⟩

section Alike
variable {veil : Veil} {S S' : Record → Prop}

structure Record.Alike (veil : Veil) (S S' : Record → Prop) (r r' : Record) : Prop where
  veiled : r.veiled veil = r'.veiled veil
  seen : S r
  seen' : S' r'

namespace Host

mutual

theorem paired_of_veiled (x : Host) {x' : Host} (h : x.veiled veil = x'.veiled veil)
    (seen : ∀ r, x.Reveals r → S r) (seen' : ∀ r, x'.Reveals r → S' r) :
    Paired (Record.Alike veil S S') x x' := by
  by_cases plain : x.IsPlain = true
  · have plain' : x'.IsPlain = true := by
      have both := congrArg IsPlain h
      rwa [isPlain_veiled, isPlain_veiled, plain, eq_comm] at both
    rw [veiled_of_isPlain plain, veiled_of_isPlain plain'] at h
    exact h ▸ .plain plain
  · cases x with
    | list xs =>
      cases x' with
      | list ys =>
        refine .list (allPaired_of_veiled xs (Host.list.inj h) ?_ ?_)
        · exact fun x hx r found => seen r (.list hx found)
        · exact fun x hx r found => seen' r (.list hx found)
      | _ => cases h
    | tuple xs =>
      cases x' with
      | tuple ys =>
        refine .tuple (allPaired_of_veiled xs (Host.tuple.inj h) ?_ ?_)
        · exact fun x hx r found => seen r (.tuple hx found)
        · exact fun x hx r found => seen' r (.tuple hx found)
      | _ => cases h
    | pair a b =>
      cases x' with
      | pair c d =>
        obtain ⟨first, second⟩ := Host.pair.inj h
        refine .pair (paired_of_veiled a first ?_ ?_) (paired_of_veiled b second ?_ ?_)
        · exact fun r found => seen r (.first b found)
        · exact fun r found => seen' r (.first d found)
        · exact fun r found => seen r (.second a found)
        · exact fun r found => seen' r (.second c found)
      | _ => cases h
    | mapping es =>
      cases x' with
      | mapping fs =>
        have entries : EntriesPaired (Record.Alike veil S S') es fs := by
          refine entriesPaired_of_veiled es (Host.mapping.inj h) ?_ ?_
          · exact fun e he r found => seen r (.entry he found)
          · exact fun e he r found => seen' r (.entry he found)
        obtain ⟨keys, values⟩ := forall₂_entries_iff.1 entries
        exact .mapping keys values
      | _ => cases h
    | standIn name x =>
      cases x' with
      | standIn name' y =>
        obtain ⟨rfl, inside⟩ := Host.standIn.inj h
        refine .standIn name (paired_of_veiled x inside ?_ ?_)
        · exact fun r found => seen r (.standIn name found)
        · exact fun r found => seen' r (.standIn name found)
      | _ => cases h
    | provider name x =>
      cases x' with
      | provider name' y =>
        obtain ⟨rfl, inside⟩ := Host.provider.inj h
        refine .provider name (paired_of_veiled x inside ?_ ?_)
        · exact fun r found => seen r (.provider name found)
        · exact fun r found => seen' r (.provider name found)
      | _ => cases h
    | method x =>
      cases x' with
      | method y =>
        refine .method (paired_of_veiled x (Host.method.inj h) ?_ ?_)
        · exact fun r found => seen r (.method found)
        · exact fun r found => seen' r (.method found)
      | _ => cases h
    | record r =>
      cases x' with
      | record r' => exact .record ⟨Host.record.inj h, seen r (.record r), seen' r' (.record r')⟩
      | _ => cases h
    | _ => exact absurd rfl plain

theorem allPaired_of_veiled (xs : List Host) {ys : List Host}
    (h : allVeiled veil xs = allVeiled veil ys) (seen : ∀ x ∈ xs, ∀ r, x.Reveals r → S r)
    (seen' : ∀ y ∈ ys, ∀ r, y.Reveals r → S' r) :
    List.Forall₂ (Paired (Record.Alike veil S S')) xs ys := by
  cases xs with
  | nil =>
    cases ys with
    | nil => exact .nil
    | cons => cases h
  | cons x xs =>
    cases ys with
    | nil => cases h
    | cons y ys =>
      obtain ⟨first, others⟩ := List.cons.inj h
      obtain ⟨seen, more⟩ := List.forall_mem_cons.1 seen
      obtain ⟨seen', more'⟩ := List.forall_mem_cons.1 seen'
      exact .cons (paired_of_veiled x first seen seen') (allPaired_of_veiled xs others more more')

theorem entriesPaired_of_veiled (es : List (Host × Host)) {fs : List (Host × Host)}
    (h : entriesVeiled veil es = entriesVeiled veil fs) (seen : ∀ e ∈ es, ∀ r, e.2.Reveals r → S r)
    (seen' : ∀ f ∈ fs, ∀ r, f.2.Reveals r → S' r) :
    EntriesPaired (Record.Alike veil S S') es fs := by
  cases es with
  | nil =>
    cases fs with
    | nil => exact .nil
    | cons => cases h
  | cons e es =>
    obtain ⟨k, x⟩ := e
    cases fs with
    | nil => cases h
    | cons f fs =>
      obtain ⟨l, y⟩ := f
      obtain ⟨first, others⟩ := List.cons.inj h
      obtain ⟨keys, values⟩ := Prod.mk.inj first
      obtain ⟨seen, more⟩ := List.forall_mem_cons.1 seen
      obtain ⟨seen', more'⟩ := List.forall_mem_cons.1 seen'
      refine .cons ⟨sameKey_of_veiled keys, paired_of_veiled x values seen seen'⟩ ?_
      exact entriesPaired_of_veiled es others more more'

end

end Host

namespace Record
variable {fields fields' : List (String × Host)} {covered covered' : String → Bool} {name : String}
  {r r' : Record} {x x' : Host}

theorem both_of_map_eq {α β : Type} {f : α → β} {a b : Option α} (h : a.map f = b.map f) :
    (a = none ∧ b = none) ∨ ∃ x y, a = some x ∧ b = some y ∧ f x = f y := by
  cases a with
  | none =>
    rw [Option.map_none, eq_comm, Option.map_eq_none_iff] at h
    exact .inl ⟨rfl, h⟩
  | some x =>
    rw [Option.map_some, eq_comm, Option.map_eq_some_iff] at h
    obtain ⟨y, found, same⟩ := h
    exact .inr ⟨x, y, rfl, found, same.symm⟩

/-- What is not covered is there on both sides or on none. -/
theorem last?_of_veiled (name : String)
    (h : Host.fieldsVeiled veil covered fields = Host.fieldsVeiled veil covered' fields')
    (open₁ : covered name = false) (open₂ : covered' name = false) :
    (last? fields name = none ∧ last? fields' name = none) ∨
      ∃ x x', last? fields name = some x ∧ last? fields' name = some x' ∧
      x.veiled veil = x'.veiled veil := by
  have found : (last? fields name).map (Host.veiled veil) =
      (last? fields' name).map (Host.veiled veil) := by
    have both := congrArg (fun fs => last? fs name) h
    simpa only [last?_veiled, open₁, open₂, Bool.false_eq_true, if_false] using both
  exact both_of_map_eq found

/-- The same of all that can be read of a record. -/
theorem attribute?_of_veiled {attributes attributes' : List (String × Host)} (name : String)
    (h : Host.fieldsVeiled veil covered fields = Host.fieldsVeiled veil covered' fields')
    (h' : Host.fieldsVeiled veil veil.computed attributes =
      Host.fieldsVeiled veil veil.computed attributes')
    (open₁ : covered name = false) (open₂ : covered' name = false)
    (open₃ : veil.computed name = false) :
    (attribute? fields attributes name = none ∧ attribute? fields' attributes' name = none) ∨
      ∃ x x', attribute? fields attributes name = some x ∧
        attribute? fields' attributes' name = some x' ∧
        x.veiled veil = x'.veiled veil := by
  rcases last?_of_veiled name h open₁ open₂ with ⟨left, right⟩ | ⟨x, x', left, right, beside⟩
  · rw [attribute?, attribute?, left, right]
    exact last?_of_veiled name h' open₃ open₃
  · rw [attribute?, attribute?, left, right]
    exact .inr ⟨x, x', rfl, rfl, beside⟩

theorem lookup_of_veiled {relations relations' : List (String × Related)}
    (h : Related.relationsVeiled veil covered relations =
      Related.relationsVeiled veil covered relations')
    (seen : covered name = false) :
    (relations.lookup name = none ∧ relations'.lookup name = none) ∨
      ∃ x x', relations.lookup name = some x ∧ relations'.lookup name = some x' ∧
        x.veiled veil = x'.veiled veil := by
  have found : (relations.lookup name).map (Related.veiled veil) =
      (relations'.lookup name).map (Related.veiled veil) := by
    rw [← lookup_relationsVeiled seen, h, lookup_relationsVeiled seen]
  exact both_of_map_eq found

theorem wrapAll_paired {others others' : List Instance}
    (h : Related.allVeiled veil others = Related.allVeiled veil others')
    (seen : ∀ o ∈ others, ∀ j, S (.model j o [])) (seen' : ∀ o ∈ others', ∀ j, S' (.model j o []))
    (identity : Nat → Identity) :
    List.Forall₂ (Value.Paired (Alike veil S S'))
      (others.mapIdx fun i o => .record (.model (identity i) o []))
      (others'.mapIdx fun i o => .record (.model (identity i) o [])) := by
  induction others generalizing others' identity with
  | nil =>
    cases others' with
    | nil => exact .nil
    | cons => cases h
  | cons o rest ih =>
    cases others' with
    | nil => cases h
    | cons o' rest' =>
      obtain ⟨first, more⟩ := List.cons.inj h
      obtain ⟨hseen, hmore⟩ := List.forall_mem_cons.1 seen
      obtain ⟨hseen', hmore'⟩ := List.forall_mem_cons.1 seen'
      have made : Alike veil S S' (.model (identity 0) o []) (.model (identity 0) o' []) :=
        ⟨congrArg (Record.model (identity 0) · []) first, hseen _, hseen' _⟩
      rw [List.mapIdx_cons, List.mapIdx_cons]
      exact .cons (.record made) (ih more hmore hmore' fun i => identity (i + 1))

section Pairing
variable (unread : veil.Unread) (closed : Closed S) (closed' : Closed S')

include closed closed' in
/-- What is shown of records that look alike is converted alike. -/
theorem toValue_of_shows (alike : Alike veil S S' r r') (shows : r.Shows x) (shows' : r'.Shows x')
    (h : x.veiled veil = x'.veiled veil) :
    Paired (Option.Rel (Value.Paired (Alike veil S S'))) (x.toValue.map some)
      (x'.toValue.map some) := by
  have beside : Host.Paired (Alike veil S S') x x' :=
    Host.paired_of_veiled x h (fun s => closed r x s alike.seen shows) fun s =>
      closed' r' x' s alike.seen' shows'
  exact beside.toValue.map fun _ _ paired => .some paired

theorem builtin_paired (R : Record → Record → Prop) (typeName : String)
    (allowed : Option (List String)) (name : String) :
    Paired (Value.Paired R) (builtin typeName allowed name) (builtin typeName allowed name) := by
  unfold builtin
  split
  · exact .ok (.list (List.forall₂_same.2 (List.forall_mem_map.2 fun _ _ => .plain rfl)))
  · split <;> exact .error _

include closed closed' in
theorem wrap_paired {i : Identity} {subject subject' : Instance} {included : List String}
    {related related' : Related}
    (alike : Alike veil S S' (.model i subject included) (.model i subject' included)) (site : Site)
    (listed : included.contains name = true) (left : subject.relations.lookup name = some related)
    (right : subject'.relations.lookup name = some related')
    (h : related.veiled veil = related'.veiled veil) :
    Paired (Value.Paired (Alike veil S S')) (wrap site related) (wrap site related') := by
  cases related with
  | none =>
    cases related' with
    | none => exact .ok (.plain rfl)
    | _ => cases h
  | one o =>
    cases related' with
    | one o' =>
      have seen : S (.model (site.identity 0) o []) :=
        closed _ _ _ alike.seen (.one i _ listed left) (.record _)
      have seen' : S' (.model (site.identity 0) o' []) :=
        closed' _ _ _ alike.seen' (.one i _ listed right) (.record _)
      exact .ok (.record ⟨congrArg (Record.model _ · []) (Related.one.inj h), seen, seen'⟩)
    | _ => cases h
  | many others =>
    cases related' with
    | many others' =>
      have seen (o : Instance) (ho : o ∈ others) (j : Identity) : S (.model j o []) :=
        closed _ _ _ alike.seen (.many i j listed left ho) (.record _)
      have seen' (o : Instance) (ho : o ∈ others') (j : Identity) : S' (.model j o []) :=
        closed' _ _ _ alike.seen' (.many i j listed right ho) (.record _)
      exact .ok (.list (wrapAll_paired (Related.many.inj h) seen seen' site.identity))
    | _ => cases h
  | keyed others =>
    cases related' with
    | keyed others' =>
      have same := Related.keyed.inj h
      cases others with
      | nil =>
        cases others' with
        | nil => exact .ok (.mapping rfl .nil)
        | cons => cases same
      | cons o rest =>
        cases others' with
        | nil => cases same
        | cons o' rest' =>
          have name : o.typeName = o'.typeName := by
            have both := congrArg Instance.typeName (List.cons.inj same).1
            rwa [Instance.typeName_veiled, Instance.typeName_veiled] at both
          rw [wrap, wrap, name]
          exact .error _
    | _ => cases h

section Fields
variable {i : Identity} {face : Face} {fs fs' : List (String × Host)} {allowed : Option (List String)}
  {attributes attributes' : List (String × Host)}

include unread closed closed' in
theorem fieldOf_paired (alike : Alike veil S S' (.fields i face fs allowed attributes)
      (.fields i face fs' allowed attributes')) (name : String) :
    Paired (Option.Rel (Value.Paired (Alike veil S S')))
      (fieldOf face.typeName fs allowed attributes name)
      (fieldOf face.typeName fs' allowed attributes' name) := by
  obtain ⟨-, -, same, -, same'⟩ := Record.fields.inj alike.veiled
  have visible : isVisible fs allowed attributes name =
      isVisible fs' allowed attributes' name := by
    rw [← isVisible_veiled unread, same, same', isVisible_veiled unread]
  unfold fieldOf
  cases shown : isVisible fs allowed attributes name with
  | error fault =>
    rw [← visible, shown]
    exact .error fault
  | ok b =>
    rw [← visible, shown]
    cases b with
    | false => exact .ok .none
    | true =>
      have here := unread.visible fs allowed attributes name shown
      have there := unread.visible fs' allowed attributes' name (visible ▸ shown)
      rcases attribute?_of_veiled name same same' here there (unread.computed name) with
        ⟨left, right⟩ | ⟨x, x', left, right, beside⟩
      · simp only [left, right, ok_bind, if_true]
        exact (builtin_paired _ face.typeName allowed name).map fun _ _ paired => .some paired
      · simp only [left, right, ok_bind, if_true]
        exact toValue_of_shows closed closed' alike (.field i face shown left)
          (.field i face (visible ▸ shown) right) beside

include unread closed closed' in
theorem fields_field?_paired (alike : Alike veil S S' (.fields i face fs allowed attributes)
      (.fields i face fs' allowed attributes')) (site : Site) (name : String) :
    Paired (Option.Rel (Value.Paired (Alike veil S S')))
      (field? site (.fields i face fs allowed attributes) name)
      (field? site (.fields i face fs' allowed attributes') name) := by
  obtain ⟨-, -, same, -, same'⟩ := Record.fields.inj alike.veiled
  have own : "template_field" ∈ ownNames := by decide
  have fields := fieldOf_paired unread closed closed' alike name
  unfold field?
  dsimp only
  rcases attribute?_of_veiled _ same same' (unread.own fs allowed attributes _ own)
      (unread.own fs' allowed attributes' _ own) (unread.computed _) with
    ⟨left, right⟩ | ⟨x, x', left, right, beside⟩
  · rw [left, right]
    exact fields
  · rw [left, right]
    -- only a method takes the place of the reading of fields
    cases x with
    | method y =>
      cases x' with
      | method y' =>
        exact toValue_of_shows closed closed' alike (.returned i face own left)
          (.returned i face own right) (Host.method.inj beside)
      | _ => cases beside
    | _ =>
      cases x' with
      | method => cases beside
      | _ => exact fields

end Fields

include closed closed' in
theorem table_field?_paired {i : Identity} {fs fs' : List (String × Host)}
    (alike : Alike veil S S' (.table i fs) (.table i fs')) (site : Site) (name : String) :
    Paired (Option.Rel (Value.Paired (Alike veil S S'))) (field? site (.table i fs) name)
      (field? site (.table i fs') name) := by
  unfold field?
  dsimp only
  rcases last?_of_veiled name (Record.table.inj alike.veiled).2 rfl rfl with
    ⟨left, right⟩ | ⟨x, x', left, right, same⟩
  · rw [left, right]
    exact .ok .none
  · rw [left, right]
    exact toValue_of_shows closed closed' alike (.entry i left) (.entry i right) same

include unread closed closed' in
theorem model_field?_paired {i : Identity} {subject subject' : Instance} {included : List String}
    (alike : Alike veil S S' (.model i subject included) (.model i subject' included)) (site : Site)
    (name : String) :
    Paired (Option.Rel (Value.Paired (Alike veil S S')))
      (field? site (.model i subject included) name)
      (field? site (.model i subject' included) name) := by
  obtain ⟨-, same, -⟩ := Record.model.inj alike.veiled
  obtain ⟨typeName, columns, relations⟩ := subject
  obtain ⟨typeName', columns', relations'⟩ := subject'
  obtain ⟨rfl, columnsSame, relationsSame⟩ := Instance.mk.inj same
  unfold field?
  dsimp only [Instance.columns, Instance.relations]
  rcases last?_of_veiled name columnsSame rfl rfl with
    ⟨left, right⟩ | ⟨x, x', left, right, beside⟩
  · rw [left, right]
    dsimp only
    split
    · rename_i listed
      have uncovered : veil.relation included name = false :=
        unread.included included name listed
      rcases lookup_of_veiled relationsSame uncovered with
        ⟨left, right⟩ | ⟨x, x', left, right, beside⟩
      · rw [left, right]
        exact .ok .none
      · rw [left, right]
        have wrapped := wrap_paired closed closed' alike site listed left right beside
        exact wrapped.map fun _ _ paired => .some paired
    · exact .ok .none
  · rw [left, right]
    exact toValue_of_shows closed closed' alike (.column i left) (.column i right) beside

include unread closed closed' in
theorem field?_paired (alike : Alike veil S S' r r') (site : Site) (name : String) :
    Paired (Option.Rel (Value.Paired (Alike veil S S'))) (r.field? site name)
      (r'.field? site name) := by
  cases r with
  | fields i face fs allowed attributes =>
    cases r' with
    | fields i' face' fs' allowed' attributes' =>
      obtain ⟨rfl, rfl, -, rfl, -⟩ := Record.fields.inj alike.veiled
      exact fields_field?_paired unread closed closed' alike site name
    | _ => cases alike.veiled
  | table i fs =>
    cases r' with
    | table i' fs' =>
      obtain ⟨rfl, -⟩ := Record.table.inj alike.veiled
      exact table_field?_paired closed closed' alike site name
    | _ => cases alike.veiled
  | bare i =>
    cases r' with
    | bare i' => exact .ok .none
    | _ => cases alike.veiled
  | model i subject included =>
    cases r' with
    | model i' subject' included' =>
      obtain ⟨rfl, -, rfl⟩ := Record.model.inj alike.veiled
      exact model_field?_paired unread closed closed' alike site name
    | _ => cases alike.veiled

include unread closed closed' in
theorem provided_paired (alike : Alike veil S S' r r') :
    Paired (Host.Paired (Alike veil S S')) (Context.provided (.record r))
      (Context.provided (.record r')) := by
  cases r with
  | fields i face fs allowed attributes =>
    cases r' with
    | fields i' face' fs' allowed' attributes' =>
      obtain ⟨rfl, rfl, same, rfl, same'⟩ := Record.fields.inj alike.veiled
      have own : "to_template_context" ∈ ownNames := by decide
      unfold Context.provided
      dsimp only
      rcases attribute?_of_veiled _ same same' (unread.own fs allowed attributes _ own)
          (unread.own fs' allowed attributes' _ own) (unread.computed _) with
        ⟨left, right⟩ | ⟨x, x', left, right, beside⟩
      · rw [left, right]
        exact .ok (.record alike)
      · have name : x.qualifiedTypeName = x'.qualifiedTypeName := by
          have both := congrArg Host.qualifiedTypeName beside
          rwa [Host.qualifiedTypeName_veiled, Host.qualifiedTypeName_veiled] at both
        rw [left, right]
        cases x with
        | method y =>
          cases x' with
          | method y' =>
            refine .ok (Host.paired_of_veiled y (Host.method.inj beside) ?_ ?_)
            · exact fun s => closed _ _ s alike.seen (.returned i face own left)
            · exact fun s => closed' _ _ s alike.seen' (.returned i face own right)
          | _ => cases beside
        | _ =>
          cases x' with
          | method => cases beside
          | _ =>
            dsimp only
            rw [name]
            exact .error _
    | _ => cases alike.veiled
  | table | bare | model =>
    cases r' with
    | fields => cases alike.veiled
    | _ => exact .ok (.record alike)

include unread closed closed' in
theorem alike_pairing : Pairing (Alike veil S S') where
  typeName r r' alike := by
    have both := congrArg Record.typeName alike.veiled
    rwa [typeName_veiled, typeName_veiled] at both
  field? _ _ alike := field?_paired unread closed closed' alike
  provided _ _ alike := provided_paired unread closed closed' alike

end Pairing

end Record

end Alike

/-- A template that compiles makes the same of two contexts that are the same through a veil under
which nothing is read. If it compares for equality, the records that look alike must be equal to one
another alike. -/
theorem Template.render_of_same {veil : Veil} (unread : veil.Unread) {source : String}
    {t : Template} (ht : Document.parse source = .ok t.document) {data data' : Option Host}
    {named named' : List (String × Host)} (same : veil.Same data named data' named')
    (keeps : t.document.Compares → Record.Keeps
      (Record.Alike veil (Context.Reveals data named) (Context.Reveals data' named')))
    (g : Globals) :
    t.render g data named = t.render g data' named' := by
  obtain ⟨sameData, sameNamed⟩ := same
  have pairing := Record.alike_pairing unread (Context.closed_reveals data named)
    (Context.closed_reveals data' named')
  refine Template.render_paired ht pairing keeps ?_ ?_ g
  · cases data with
    | none =>
      cases data' with
      | none => exact .none
      | some => cases sameData
    | some x =>
      cases data' with
      | none => cases sameData
      | some x' =>
        refine .some (Host.paired_of_veiled x (Option.some.inj sameData) ?_ ?_)
        · exact fun r found => .inl ⟨x, rfl, found⟩
        · exact fun r found => .inl ⟨x', rfl, found⟩
  · have beside : List.Forall₂ (fun v v' => (v.1, v.2.veiled veil) = (v'.1, v'.2.veiled veil))
        named named' := by
      rwa [← List.forall₂_eq_eq_eq, List.forall₂_map_left_iff,
        List.forall₂_map_right_iff] at sameNamed
    rw [List.forall₂_iff_zip] at beside ⊢
    refine ⟨beside.1, fun {v v'} both => ?_⟩
    obtain ⟨inside, inside'⟩ := List.of_mem_zip both
    obtain ⟨name, value⟩ := Prod.mk.inj (beside.2 both)
    refine ⟨name, Host.paired_of_veiled v.2 value ?_ ?_⟩
    · exact fun r found => .inr ⟨v, inside, found⟩
    · exact fun r found => .inr ⟨v', inside', found⟩

end Stencil
