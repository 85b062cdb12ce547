import Stencil.Record
import Stencil.Text.Blank
import Stencil.Text.Case
import Stencil.Value.Display

/-! Built-in operations, written as members of a value. Each is defined for some kinds of values and
found by kind and name; none takes arguments. -/
namespace Stencil

inductive Operation where
  | abs | toText | toFloat | toInteger | times | ceil | floor | round
  | upcase | downcase | trim | length
  | enumerate | reverse
  | keys | values | iter
  deriving DecidableEq, Repr

namespace Operation

def all : List Operation :=
  [abs, toText, toFloat, toInteger, times, ceil, floor, round, upcase, downcase, trim, length,
    enumerate, reverse, keys, values, iter]

def name : Operation → String
  | abs => "abs" | toText => "to_string" | toFloat => "to_f" | toInteger => "to_i"
  | times => "times"
  | ceil => "ceil" | floor => "floor" | round => "round"
  | upcase => "upcase" | downcase => "downcase" | trim => "trim" | length => "len"
  | enumerate => "enumerate" | reverse => "reverse"
  | keys => "keys" | values => "values" | iter => "iter"

def aliases : Operation → List String
  | toText => ["to_s"] | toFloat => ["to_float"] | toInteger => ["to_integer"]
  | upcase => ["to_uppercase"] | downcase => ["to_lowercase"] | length => ["length"]
  | reverse => ["rev"]
  | _ => []

def names (o : Operation) : List String := o.name :: o.aliases

def kinds : Operation → List Value.Kind
  | abs => [.integer, .float]
  | toText => [.integer, .float, .string, .boolean]
  | toFloat | times => [.integer]
  | toInteger | ceil | floor | round => [.float]
  | upcase | downcase | trim => [.string]
  | length => [.string, .list, .mapping]
  | enumerate | reverse => [.list]
  | keys | values | iter => [.mapping]

def find? (kind : Value.Kind) (name : String) : Option Operation :=
  all.find? fun o => o.kinds.contains kind && o.names.contains name

def listFor (kind : Value.Kind) : List String :=
  ((all.filter fun o => o.kinds.contains kind).flatMap names).mergeSort (fun a b => a ≤ b)

def rounded (rule : Rat → Int) (x : Float) : Except RenderFault.NoInteger Int :=
  match Extended.ofFloat? x with
  | none => .error .nan
  | some (.finite q) => .ok (rule q)
  | some _ => .error .infinite

def roundedNearest (x : Float) : Except RenderFault.NoInteger Int :=
  match rounded Rounding.nearest x with
  | .ok n => .ok n
  | .error _ => .error (.unrounded (displayFloat x))

/-- The rounded double; `called` is the name the operation was called by. -/
def integerOf (called : String) (x : Float) (r : Except RenderFault.NoInteger Int) :
    Except RenderFault Value :=
  match r with
  | .ok n => .ok (.int n)
  | .error cause => .error (.mismatch (.acceptedBy called) (displayFloat x) (some (.because cause)))

def pairsFrom (start : Nat) : List Value → List Value
  | [] => []
  | v :: rest => .pair (.int start) v :: pairsFrom (start + 1) rest

def apply (o : Operation) (called : String) (v : Value) : Except RenderFault Value :=
  match o, v with
  | abs, .int n => .ok (.int n.natAbs)
  | abs, .float x => .ok (.float x.abs)
  | toText, v => (v.display 0).map .string
  | toFloat, .int n =>
    match Integer.toFloat? n with
    | some x => .ok (.float x)
    | none => .error (.mismatch (.acceptedBy called) (toString n) (some (.because .tooLarge)))
  | toInteger, .float x => integerOf called x (rounded Rounding.truncate x)
  | times, .int n =>
    if n < 0 then .error (.mismatch .nonNegative (toString n) (some (.callTo "times")))
    else if Integer.greatest < n then
      .error (.mismatch (.acceptedBy called) (toString n) (some (.because .beyondCounting)))
    else .ok (.list ((List.range n.toNat).map fun i => .int (Int.ofNat i)))
  | ceil, .float x => integerOf called x (rounded Rat.ceil x)
  | floor, .float x => integerOf called x (rounded Rat.floor x)
  | round, .float x => integerOf called x (roundedNearest x)
  | upcase, .string s => .ok (.string (String.ofList (Text.upper s.toList)))
  | downcase, .string s => .ok (.string (String.ofList (Text.lower s.toList)))
  | trim, .string s => .ok (.string (String.ofList (Text.trim s.toList)))
  | length, .string s => .ok (.int s.length)
  | length, .list xs => .ok (.int xs.length)
  | length, .mapping es => .ok (.int es.length)
  | enumerate, .list xs => .ok (.list (pairsFrom 0 xs))
  | reverse, .list xs => .ok (.list xs.reverse)
  | keys, .mapping es => .ok (.list (es.map fun e => .string e.1))
  | values, .mapping es => .ok (.list (es.map fun e => e.2))
  | iter, .mapping es => .ok (.list (es.map fun e => .pair (.string e.1) e.2))
  | o, v => .error (.undefinedOperation v.kind.text o.name)

def checkResult (called : String) : Value → Except RenderFault Value
  | .int n => (checkInteger (.resultOf called) n).map .int
  | v => .ok v

def call (v : Value) (name : String) (args : List Value) : Except RenderFault Value :=
  match find? v.kind name with
  | none => .error (.undefinedOperation v.kind.text name)
  | some o =>
    if args.isEmpty then o.apply name v >>= checkResult name
    else .error (.mismatch (.arguments 0) (toString args.length) (some (.callTo o.name)))

end Operation

namespace Value

/-- The member of a value: an operation first, then an entry of a mapping or a field of a record. -/
def member (site : Site) (v : Value) (name : String) (args : List Value) :
    Except RenderFault Value :=
  if (Operation.find? v.kind name).isSome then Operation.call v name args
  else if !args.isEmpty then .error (.undefinedOperation v.kind.text name)
  else
    match v with
    | mapping es =>
      match es.lookup name with
      | some x => .ok x
      | none => .error (.missingKey name v.receiver)
    | record r => do
      match ← r.field? site name with
      | some x => .ok x
      | none => .error (.missingKey name v.receiver)
    | _ => .error (.undefinedOperation v.kind.text name)

def atIndex (items : List Value) (i : Int) : Except RenderFault Value :=
  match (if i < 0 then none else items[i.toNat]?) with
  | some x => .ok x
  | none => .error (.indexOutOfBounds i items.length)

def index (v : Value) (i : Int) : Except RenderFault Value :=
  match v with
  | list xs => atIndex xs i
  | pair a b => atIndex [a, b] i
  | _ => .error (.undefinedOperation v.kind.text (toString i))

end Value
end Stencil
