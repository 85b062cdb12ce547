import Stencil.Host.Basic
import Stencil.Number.Arithmetic

/-! The values templates compute with. There are nine kinds and no others. -/
namespace Stencil

inductive Value where
  | null
  | bool (b : Bool)
  | int (n : Int)
  | float (x : Float)
  | string (s : String)
  | list (items : List Value)
  | pair (first second : Value)
  /-- Entries in the order of their first appearance; keys are distinct. -/
  | mapping (entries : List (String × Value))
  | record (r : Record)

namespace Value

instance : Inhabited Value := ⟨null⟩

inductive Kind where
  | boolean | integer | float | string | list | mapping | pair | record | null
  deriving DecidableEq, Repr

def Kind.text : Kind → String
  | boolean => "boolean" | integer => "integer" | float => "float" | string => "string"
  | list => "list" | mapping => "mapping" | pair => "pair" | record => "record" | null => "null"

def Kind.all : List Kind := [boolean, integer, float, string, list, mapping, pair, record, null]

def Kind.ofText? (s : String) : Option Kind := Kind.all.find? fun k => k.text == s

def kind : Value → Kind
  | null => .null
  | bool _ => .boolean
  | int _ => .integer
  | float _ => .float
  | string _ => .string
  | list _ => .list
  | pair .. => .pair
  | mapping _ => .mapping
  | record _ => .record

/-- Numbers are true unless zero, texts, lists and mappings unless empty; nil is false, pairs and
records are true. -/
def truthy : Value → Bool
  | null => false
  | bool b => b
  | int n => n != 0
  | float x => !Binary64.isZero x
  | string s => !s.isEmpty
  | list items => !items.isEmpty
  | mapping entries => !entries.isEmpty
  | pair .. => true
  | record _ => true

def number? : Value → Option Extended
  | int n => some (.ofInt n)
  | float x => Extended.ofFloat? x
  | _ => none

def insert (entries : List (String × Value)) (key : String) (value : Value) :
    List (String × Value) :=
  match entries with
  | [] => [(key, value)]
  | (k, v) :: rest => if k = key then (k, value) :: rest else (k, v) :: insert rest key value

theorem lookup_insert (entries : List (String × Value)) (key name : String) (value : Value) :
    (insert entries key value).lookup name =
      if name = key then some value else entries.lookup name := by
  induction entries with
  | nil =>
    by_cases h : name = key
    · simp [insert, h]
    · have hb : (name == key) = false := by simpa using h
      simp [insert, List.lookup_cons, h, hb]
  | cons entry rest ih =>
    obtain ⟨k, v⟩ := entry
    unfold insert
    by_cases same : k = key
    · subst k
      by_cases h : name = key
      · simp [h]
      · have hb : (name == key) = false := by simpa using h
        simp [List.lookup_cons, h, hb]
    · by_cases h : name = k
      · subst h
        simp [same]
      · have hb : (name == k) = false := by simpa using h
        simp [List.lookup_cons, same, hb, ih]

def receiver : Value → String
  | record r => r.typeName
  | v => v.kind.text

end Value
end Stencil
