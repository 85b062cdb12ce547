import Stencil.Host.Conversion
import Stencil.Host.Equality
import Stencil.Text.Removal

/-! Reading the fields of records. A record that comes out of a relation is made anew each time, so
it is the same as another one only if both are one and the same reading. -/
namespace Stencil

/-- Where in a render an expression is evaluated: how many loops are open, and the path from the
whole expression down to the part at hand, innermost step first. -/
structure Site where
  loops : Nat
  path : List Nat
  deriving DecidableEq, Repr

namespace Site

def top : Site := ⟨0, []⟩

def part (s : Site) (n : Nat) : Site := { s with path := n :: s.path }

def depth (s : Site) : Nat := s.path.length

def identity (s : Site) (item : Nat) : Identity := .made s.loops s.path item

end Site

namespace Record

def last? (fields : List (String × Host)) (name : String) : Option Host :=
  fields.reverse.lookup name

def attribute? (fields attributes : List (String × Host)) (name : String) : Option Host :=
  (last? fields name).or (last? attributes name)

def allowance (fields : List (String × Host)) (allowed : Option (List String))
    (attributes : List (String × Host)) : Host :=
  match attribute? fields attributes "template_fields" with
  | some own => own
  | none => (allowed.map fun names => Host.tuple (names.map .string)).getD .null

/-- The name is among the allowed ones, `fields` being all there are. A text allows whatever occurs
in it. -/
def allows (fields : List (String × Host)) (name : String) : Host → Except RenderFault Bool
  | .null => .ok ((fields.map (·.1)).contains name)
  | .list items | .tuple items => .ok (items.any (·.same (.string name)))
  | .pair a b => .ok (a.same (.string name) || b.same (.string name))
  | .mapping entries => .ok (entries.any (·.1.same (.string name)))
  | .string s => .ok (Text.occurs name.toList s.toList)
  | .unsupported ⟨"set", _⟩ => .ok false
  | .unsupported ⟨"bytes", _⟩ => .error .bytesSearched
  | other => .error (.notSearchable other.qualifiedTypeName)

/-- Fields with a leading underscore are hidden, and if only some are allowed, all others. What
takes the place of the reading of fields leaves none to be read. -/
def isVisible (fields : List (String × Host)) (allowed : Option (List String))
    (attributes : List (String × Host)) (name : String) : Except RenderFault Bool :=
  match attribute? fields attributes "template_field" with
  | some (.method _) => .ok false
  | some other => .error (.notCallable other.qualifiedTypeName)
  | none =>
    if name.toList.head? = some '_' then .ok false
    else allows fields name (allowance fields allowed attributes)

def wrap (site : Site) : Related → Except RenderFault Value
  | .none => .ok .null
  | .one subject => .ok (.record (.model (site.identity 0) subject []))
  | .many subjects =>
    .ok (.list (subjects.mapIdx fun i subject => .record (.model (site.identity i) subject [])))
  | .keyed [] => .ok (.mapping [])
  | .keyed (subject :: _) => .error (.mismatch .templateValue subject.typeName (some .conversion))

/-- What every record has, where the allowed names list it: those names themselves, and the way
fields are read, which is no value. -/
def builtin (typeName : String) (allowed : Option (List String)) (name : String) :
    Except RenderFault Value :=
  if name = "template_fields" then .ok (.list ((allowed.getD []).map .string))
  else if name = "template_field" then .error (.mismatch .templateValue "method" (some .conversion))
  else .error (.absentField typeName name)

def fieldOf (typeName : String) (fields : List (String × Host)) (allowed : Option (List String))
    (attributes : List (String × Host)) (name : String) : Except RenderFault (Option Value) := do
  if ← isVisible fields allowed attributes name then
    match attribute? fields attributes name with
    | some x => (x.toValue).map some
    | none => (builtin typeName allowed name).map some
  else return none

/-- The value of a field, `none` if the record shows no field of this name. A method may take the
place of all reading. -/
def field? (site : Site) (r : Record) (name : String) : Except RenderFault (Option Value) :=
  match r with
  | fields _ face fs allowed attributes =>
    match attribute? fs attributes "template_field" with
    | some (.method result) => (result.toValue).map some
    | _ => fieldOf face.typeName fs allowed attributes name
  | table _ fs =>
    match last? fs name with
    | some x => (x.toValue).map some
    | none => .ok none
  | bare _ => .ok none
  | model _ subject included =>
    match last? subject.columns name with
    | some x => (x.toValue).map some
    | none =>
      if included.contains name then
        match subject.relations.lookup name with
        | some related => (wrap site related).map some
        | none => .ok none
      else .ok none

end Record
end Stencil
