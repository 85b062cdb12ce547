import Mathlib
import Stencil.Proofs.Record.Paired

/-! Records with something taken out. Data that is the same but for what a veil covers stands side
by side, as long as nothing under the veil is ever read. -/
namespace Stencil
open Outcome

/-- What is covered: fields, told by all fields of the record, the names it allows, its attributes
and their own name, all attributes, told by their name, and relations, told by the included ones and
their own name. -/
structure Veil where
  field : List (String × Host) → Option (List String) → List (String × Host) → String → Bool
  computed : String → Bool
  relation : List String → String → Bool

/-- A key is seen through its text, and there a record may show its fields. -/
def Veil.onKeys (veil : Veil) : Veil :=
  { veil with field := fun _ _ _ _ => false, computed := fun _ => false }

mutual

/-- The values of covered fields are gone, covered relations are gone altogether. -/
def Host.veiled (veil : Veil) : Host → Host
  | .null => .null
  | .bool b => .bool b
  | .int n => .int n
  | .float x => .float x
  | .string s => .string s
  | .list items => .list (Host.allVeiled veil items)
  | .tuple items => .tuple (Host.allVeiled veil items)
  | .pair a b => .pair (Host.veiled veil a) (Host.veiled veil b)
  | .mapping entries => .mapping (Host.entriesVeiled veil entries)
  | .decimal d => .decimal d
  | .date d => .date d
  | .datetime t => .datetime t
  | .uuid u => .uuid u
  | .standIn face x => .standIn face (Host.veiled veil x)
  | .provider face x => .provider face (Host.veiled veil x)
  | .method x => .method (Host.veiled veil x)
  | .unsupported face => .unsupported face
  | .record r => .record (Record.veiled veil r)
termination_by structural x => x

def Host.allVeiled (veil : Veil) : List Host → List Host
  | [] => []
  | x :: rest => Host.veiled veil x :: Host.allVeiled veil rest
termination_by structural x => x

def Host.entriesVeiled (veil : Veil) : List (Host × Host) → List (Host × Host)
  | [] => []
  | (key, x) :: rest =>
    (Host.veiled veil.onKeys key, Host.veiled veil x) :: Host.entriesVeiled veil rest
termination_by structural x => x

def Host.fieldsVeiled (veil : Veil) (covered : String → Bool) :
    List (String × Host) → List (String × Host)
  | [] => []
  | (name, x) :: rest =>
    (name, if covered name then .null else Host.veiled veil x) ::
      Host.fieldsVeiled veil covered rest
termination_by structural x => x

def Record.veiled (veil : Veil) : Record → Record
  | .fields i face fs allowed attributes =>
    .fields i face (Host.fieldsVeiled veil (veil.field fs allowed attributes) fs) allowed
      (Host.fieldsVeiled veil veil.computed attributes)
  | .table i fs => .table i (Host.fieldsVeiled veil (fun _ => false) fs)
  | .bare i => .bare i
  | .model i subject included => .model i (Instance.veiled veil included subject) included
termination_by structural x => x

def Instance.veiled (veil : Veil) (included : List String) : Instance → Instance
  | .mk name columns relations =>
    .mk name (Host.fieldsVeiled veil (fun _ => false) columns)
      (Related.relationsVeiled veil (veil.relation included) relations)
termination_by structural x => x

def Related.relationsVeiled (veil : Veil) (covered : String → Bool) :
    List (String × Related) → List (String × Related)
  | [] => []
  | (name, related) :: rest =>
    let others := Related.relationsVeiled veil covered rest
    if covered name then others else (name, Related.veiled veil related) :: others
termination_by structural x => x

def Related.veiled (veil : Veil) : Related → Related
  | .none => .none
  | .one subject => .one (Instance.veiled veil [] subject)
  | .many subjects => .many (Related.allVeiled veil subjects)
  | .keyed subjects => .keyed (Related.allVeiled veil subjects)
termination_by structural x => x

def Related.allVeiled (veil : Veil) : List Instance → List Instance
  | [] => []
  | subject :: rest => Instance.veiled veil [] subject :: Related.allVeiled veil rest
termination_by structural x => x

end

def Veil.Same (veil : Veil) (data : Option Host) (named : List (String × Host))
    (data' : Option Host) (named' : List (String × Host)) : Prop :=
  data.map (Host.veiled veil) = data'.map (Host.veiled veil) ∧
    named.map (fun v => (v.1, v.2.veiled veil)) = named'.map (fun v => (v.1, v.2.veiled veil))

/-- The fields that stand for something else, and may be read though they are no fields of a
template. -/
def Record.ownNames : List String := ["template_fields", "template_field", "to_template_context"]

structure Veil.Unread (veil : Veil) : Prop where
  own : ∀ fields allowed attributes,
    ∀ name ∈ Record.ownNames, veil.field fields allowed attributes name = false
  visible : ∀ fields allowed attributes name, Record.isVisible fields allowed attributes name =
    .ok true →
    veil.field fields allowed attributes name = false
  computed : ∀ name, veil.computed name = false
  included : ∀ included name, included.contains name = true → veil.relation included name = false

variable {veil : Veil}

namespace Record

@[simp] theorem typeName_veiled (r : Record) : (r.veiled veil).typeName = r.typeName := by
  cases r <;> rfl

@[simp] theorem label_veiled (r : Record) : (r.veiled veil).label = r.label := by
  cases r with
  | model i subject included =>
    obtain ⟨name, columns, relations⟩ := subject
    rfl
  | _ => rfl

end Record

theorem Instance.typeName_veiled (subject : Instance) (included : List String) :
    (subject.veiled veil included).typeName = subject.typeName := by
  obtain ⟨name, columns, relations⟩ := subject
  rfl

namespace Host
variable {x y : Host}

theorem allVeiled_eq_map (items : List Host) : allVeiled veil items = items.map (veiled veil) := by
  induction items with
  | nil => rfl
  | cons x rest ih => rw [allVeiled, ih, List.map_cons]

theorem entriesVeiled_eq_map (entries : List (Host × Host)) :
    entriesVeiled veil entries =
      entries.map fun e => (e.1.veiled veil.onKeys, e.2.veiled veil) := by
  induction entries with
  | nil => rfl
  | cons e rest ih => rw [entriesVeiled, ih, List.map_cons]

theorem fieldsVeiled_eq_map (covered : String → Bool) (fields : List (String × Host)) :
    fieldsVeiled veil covered fields =
      fields.map fun f => (f.1, if covered f.1 then .null else f.2.veiled veil) := by
  induction fields with
  | nil => rfl
  | cons f rest ih => rw [fieldsVeiled, ih, List.map_cons]

@[simp] theorem typeName_veiled (x : Host) : (x.veiled veil).typeName = x.typeName := by
  cases x with
  | record r => exact Record.typeName_veiled r
  | _ => rfl

@[simp] theorem qualifiedTypeName_veiled (x : Host) :
    (x.veiled veil).qualifiedTypeName = x.qualifiedTypeName := by
  cases x with
  | record r => exact Record.typeName_veiled r
  | _ => rfl

theorem isPlain_veiled (x : Host) : (x.veiled veil).IsPlain = x.IsPlain := by cases x <;> rfl

theorem veiled_of_isPlain (h : x.IsPlain = true) : x.veiled veil = x := by
  cases x <;> first | rfl | cases h

/-- Whether something is this text can be told through every veil. -/
theorem same_text_veiled (x : Host) (s : String) :
    (x.veiled veil).same (.string s) = x.same (.string s) := by
  cases x <;> rfl

mutual

theorem writtenText_veiled (x : Host) : (x.veiled veil).writtenText = x.writtenText := by
  cases x with
  | list items =>
    exact congrArg (fun texts => "[" ++ ", ".intercalate texts ++ "]") (writtenTexts_veiled items)
  | tuple items => exact congrArg tupleText (writtenTexts_veiled items)
  | pair a b =>
    exact congrArg₂ (fun first second => s!"Pair(first={first}, second={second})")
      (writtenText_veiled a)
      (writtenText_veiled b)
  | record r => exact Record.label_veiled r
  | null | bool | int | float | string | decimal | date | datetime | uuid | unsupported =>
    rw [veiled]
  | mapping | standIn | provider | method => rfl

theorem writtenTexts_veiled (items : List Host) :
    writtenTexts (allVeiled veil items) = writtenTexts items := by
  cases items with
  | nil => rfl
  | cons x rest => exact congrArg₂ List.cons (writtenText_veiled x) (writtenTexts_veiled rest)

end

theorem keyText_veiled (x : Host) : (x.veiled veil).keyText = x.keyText := by
  cases x with
  | string | decimal | date | datetime | uuid => rfl
  | _ => exact writtenText_veiled _

mutual

theorem isWritable_veiled (x : Host) : (x.veiled veil).isWritable = x.isWritable := by
  cases x with
  | list items => exact areWritable_veiled items
  | tuple items => exact areWritable_veiled items
  | pair a b => exact congrArg₂ and (isWritable_veiled a) (isWritable_veiled b)
  | _ => rfl

theorem areWritable_veiled (items : List Host) :
    areWritable (allVeiled veil items) = areWritable items := by
  cases items with
  | nil => rfl
  | cons x rest => exact congrArg₂ and (isWritable_veiled x) (areWritable_veiled rest)

end

theorem keyName_veiled (x : Host) : (x.veiled veil).keyName = x.keyName := by
  rw [keyName, keyName, isWritable_veiled, keyText_veiled]

theorem sameKey_of_veiled (h : x.veiled veil = y.veiled veil) : SameKey x y := by
  constructor
  · have names := congrArg keyName h
    rwa [keyName_veiled, keyName_veiled] at names
  · intro s
    have equal := congrArg (fun k => same k (.string s)) h
    rwa [same_text_veiled, same_text_veiled] at equal

end Host

namespace Record
variable {fields fields' : List (String × Host)} {covered : String → Bool} {name : String}

theorem last?_veiled :
    last? (Host.fieldsVeiled veil covered fields) name =
      (last? fields name).map fun x => if covered name then .null else x.veiled veil := by
  unfold last?
  rw [Host.fieldsVeiled_eq_map, ← List.map_reverse]
  generalize fields.reverse = fs
  induction fs with
  | nil => rfl
  | cons f rest ih =>
    obtain ⟨key, x⟩ := f
    rw [List.map_cons, List.lookup_cons, List.lookup_cons]
    cases same : name == key with
    | false => exact ih
    | true =>
      obtain rfl : name = key := by simpa using same
      rfl

theorem lookup_relationsVeiled {relations : List (String × Related)} (seen : covered name = false) :
    (Related.relationsVeiled veil covered relations).lookup name =
      (relations.lookup name).map (Related.veiled veil) := by
  induction relations with
  | nil => rfl
  | cons f rest ih =>
    obtain ⟨key, related⟩ := f
    rw [Related.relationsVeiled, List.lookup_cons]
    cases same : name == key with
    | false =>
      dsimp only
      split
      · exact ih
      · rw [List.lookup_cons, same]
        exact ih
    | true =>
      obtain rfl : name = key := by simpa using same
      simp [seen]

theorem allows_veiled (x : Host) :
    allows (Host.fieldsVeiled veil covered fields) name (x.veiled veil) = allows fields name x := by
  cases x with
  | null =>
    rw [Host.veiled, allows, allows, Host.fieldsVeiled_eq_map, List.map_map]
    rfl
  | list items =>
    rw [Host.veiled, allows, allows, Host.allVeiled_eq_map, List.any_map]
    simp only [Function.comp_def, Host.same_text_veiled]
  | tuple items =>
    rw [Host.veiled, allows, allows, Host.allVeiled_eq_map, List.any_map]
    simp only [Function.comp_def, Host.same_text_veiled]
  | pair a b => rw [Host.veiled, allows, allows, Host.same_text_veiled, Host.same_text_veiled]
  | mapping entries =>
    rw [Host.veiled, allows, allows, Host.entriesVeiled_eq_map, List.any_map]
    simp only [Function.comp_def, Host.same_text_veiled]
  | record r =>
    simp only [Host.veiled, allows, Host.qualifiedTypeName, Host.typeName, typeName_veiled]
  | unsupported =>
    rw [Host.veiled]
    unfold allows
    split <;> first | rfl | contradiction
  | _ => rfl

section Unread
variable (unread : veil.Unread) (allowed : Option (List String)) (attributes : List (String × Host))
include unread

/-- What is read of a record where it stands for something else. -/
theorem attribute?_own (h : name ∈ ownNames) :
    attribute? (Host.fieldsVeiled veil (veil.field fields allowed attributes) fields)
        (Host.fieldsVeiled veil veil.computed attributes) name =
      (attribute? fields attributes name).map (Host.veiled veil) := by
  rw [attribute?, attribute?, last?_veiled, last?_veiled,
    unread.own fields allowed attributes name h, unread.computed]
  cases last? fields name <;> rfl

theorem allowance_veiled :
    allowance (Host.fieldsVeiled veil (veil.field fields allowed attributes) fields) allowed
        (Host.fieldsVeiled veil veil.computed attributes) =
      (allowance fields allowed attributes).veiled veil := by
  unfold allowance
  rw [attribute?_own unread allowed attributes (by decide)]
  cases attribute? fields attributes "template_fields" with
  | some own => rfl
  | none =>
    cases allowed with
    | none => rfl
    | some names =>
      have texts : Host.allVeiled veil (names.map .string) = names.map .string := by
        rw [Host.allVeiled_eq_map, List.map_map]
        rfl
      exact congrArg Host.tuple texts.symm

theorem isVisible_veiled :
    isVisible (Host.fieldsVeiled veil (veil.field fields allowed attributes) fields) allowed
        (Host.fieldsVeiled veil veil.computed attributes) name =
      isVisible fields allowed attributes name := by
  unfold isVisible
  rw [attribute?_own unread allowed attributes (by decide), allowance_veiled unread, allows_veiled]
  cases attribute? fields attributes "template_field" with
  | some other =>
    rw [Option.map_some]
    have name := @Host.qualifiedTypeName_veiled veil other
    cases other <;> first | rfl | (dsimp only [Host.veiled] at name ⊢; rw [name])
  | none => rfl

end Unread

end Record

end Stencil
