import Stencil.Number.Decimal
import Stencil.Calendar
import Stencil.Uuid

/-! Host data: what an application hands to a template before it is turned into template values.
Records keep host data inside and convert a field when it is read. -/
namespace Stencil

/-- What makes a record the same one as another. A record handed over by the host carries its own
number. A record made while an expression is evaluated is known by where that happened: how many
loops are open, the path of the subexpression, and the position among the records made there. -/
inductive Identity where
  | given (number : Nat)
  | made (loops : Nat) (path : List Nat) (item : Nat)
  deriving DecidableEq, Repr

structure Face where
  typeName : String
  text : String
  deriving DecidableEq, Repr

mutual

inductive Host where
  | null
  | bool (b : Bool)
  | int (n : Int)
  | float (x : Float)
  | string (s : String)
  | list (items : List Host)
  | tuple (items : List Host)
  | pair (first second : Host)
  | mapping (entries : List (Host × Host))
  | decimal (d : Decimal)
  | date (d : Date)
  | datetime (t : DateTime)
  | uuid (u : Uuid)
  /-- An object that stands for another value. -/
  | standIn (face : Face) (value : Host)
  /-- An object that brings a whole context. -/
  | provider (face : Face) (context : Host)
  /-- A method bound to its object, and what it returns. -/
  | method (result : Host)
  | unsupported (face : Face)
  | record (r : Record)

inductive Record where
  /-- Named fields, all visible but those with a leading underscore, or only the allowed ones.
  Besides them stand properties and what else the class defines, such as methods; they are read only
  where they are allowed. What is called `template_fields` allows names in place of `allowed`. -/
  | fields (identity : Identity) (face : Face) (fields : List (String × Host))
      (allowed : Option (List String)) (attributes : List (String × Host))
  /-- Whatever its table lists. -/
  | table (identity : Identity) (fields : List (String × Host))
  /-- A record without any field. -/
  | bare (identity : Identity)
  /-- A model instance with its columns and the included relations. -/
  | model (identity : Identity) (subject : Instance) (included : List String)

inductive Instance where
  | mk (typeName : String) (columns : List (String × Host)) (relations : List (String × Related))

inductive Related where
  | none
  | one (subject : Instance)
  | many (subjects : List Instance)
  | keyed (subjects : List Instance)

end

instance : Inhabited Host := ⟨.null⟩

instance : Inhabited Record := ⟨.bare (.given 0)⟩

instance : Inhabited Instance := ⟨.mk "" [] []⟩

namespace Instance

def typeName : Instance → String
  | mk name _ _ => name

def columns : Instance → List (String × Host)
  | mk _ columns _ => columns

def relations : Instance → List (String × Related)
  | mk _ _ relations => relations

end Instance

namespace Record

def identity : Record → Identity
  | fields identity _ _ _ _ => identity
  | table identity _ => identity
  | bare identity => identity
  | model identity _ _ => identity

def typeName : Record → String
  | fields _ face _ _ _ => face.typeName
  | table .. => "DictRecord"
  | bare _ => "PlainRecord"
  | model .. => "ModelRecord"

def label : Record → String
  | fields _ face _ _ _ => face.text
  | model _ subject _ => s!"<ModelRecord {subject.typeName}>"
  | r => r.typeName

end Record

def Host.typeName : Host → String
  | null => "NoneType" | bool _ => "bool" | int _ => "int" | float _ => "float" | string _ => "str"
  | list _ => "list" | tuple _ => "tuple" | pair .. => "Pair" | mapping _ => "dict"
  | decimal _ => "Decimal" | date _ => "date" | datetime _ => "datetime" | uuid _ => "UUID"
  | standIn face _ => face.typeName | provider face _ => face.typeName | method _ => "method"
  | unsupported face => face.typeName
  | record r => r.typeName

def Host.qualifiedTypeName : Host → String
  | decimal _ => "decimal.Decimal"
  | date _ => "datetime.date"
  | datetime _ => "datetime.datetime"
  | x => x.typeName

end Stencil
