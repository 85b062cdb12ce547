import Stencil.Operator
import Stencil.Value.Basic

/-! What can go wrong while a template is rendered, and the wording of each fault. -/
namespace Stencil

inductive RenderFault.Wanted where
  | templateValue
  | integer64
  | displayable
  | mapping
  | number
  | numbers
  | comparable
  | nonNegative
  | kind (k : Value.Kind)
  | arguments (count : Nat)
  | atLeastArguments (count : Nat)
  | atMostArguments (count : Nat)
  | acceptedBy (operation : String)
  deriving DecidableEq, Repr

inductive RenderFault.NoInteger where
  | nan
  | infinite
  | unrounded (shown : String)
  | tooLarge
  /-- Too large to count the items of a list. -/
  | beyondCounting
  deriving DecidableEq, Repr

inductive RenderFault.Place where
  | conversion
  | context
  | operator (op : Operator)
  | unary (text : String)
  | resultOf (operation : String)
  | callTo (name : String)
  | argumentTo (name : String)
  | loopOver (item : String)
  | encryption
  | because (cause : RenderFault.NoInteger)
  | named (text : String)
  deriving DecidableEq, Repr

inductive CipherFault where
  | notAscii
  | tampered
  | payloadSize (bytes : Nat)
  deriving DecidableEq, Repr

inductive RenderFault where
  | undefinedVariable (name : String)
  | missingKey (name receiver : String)
  | undefinedOperation (receiver name : String)
  | mismatch (wanted : RenderFault.Wanted) (found : String) (place : Option RenderFault.Place)
  | indexOutOfBounds (index : Int) (length : Nat)
  | divisionByZero (op : Operator)
  | undecryptable (reason : CipherFault)
  | unknownStatement (kind : String)
  | unknownExpression (kind : String)
  | unknownOperator (text : String)
  | tooDeep (limit position : Nat)
  /-- The remainder of an infinite dividend. -/
  | undefinedRemainder
  /-- An integer beyond the largest double. -/
  | integerTooLarge
  /-- An integer with more digits than can be written. -/
  | integerTooLong
  /-- A text or a list cannot be repeated that often. -/
  | repetitionTooLarge
  | signalingNaN
  /-- Something is asked for a field that it does not have. -/
  | absentField (typeName field : String)
  /-- Something else stands where a function is wanted. -/
  | notCallable (typeName : String)
  /-- Something is searched for a name that holds no others. -/
  | notSearchable (typeName : String)
  | bytesSearched
  /-- Something is compared with an integer, or taken for a real number, that is no number. -/
  | notComparable (typeName : String)
  | notReal (typeName : String)
  /-- A value lies deeper than the stack has room for. -/
  | stackFull
  deriving DecidableEq, Repr

namespace RenderFault

def Wanted.text : Wanted → String
  | templateValue => "template value"
  | integer64 => "64-bit integer"
  | displayable => "displayable value"
  | mapping => "mapping"
  | number => "number"
  | numbers => "numbers"
  | comparable => "two numbers or two strings"
  | nonNegative => "non-negative integer"
  | kind k => k.text
  | arguments count => s!"{count} argument(s)"
  | atLeastArguments count => s!"at least {count} argument(s)"
  | atMostArguments count => s!"at most {count} argument(s)"
  | acceptedBy operation => s!"value accepted by '{operation}'"

def NoInteger.text : NoInteger → String
  | nan => "cannot convert float NaN to integer"
  | infinite => "cannot convert float infinity to integer"
  | unrounded shown => s!"cannot round {shown}"
  | tooLarge => "int too large to convert to float"
  | beyondCounting => "Python int too large to convert to C ssize_t"

def Place.text : Place → String
  | conversion => "context conversion"
  | context => "template context"
  | operator op => s!"operator '{op.text}'"
  | unary text => s!"unary '{text}'"
  | resultOf operation => s!"result of '{operation}'"
  | callTo name => s!"call to '{name}'"
  | argumentTo name => s!"argument to '{name}'"
  | loopOver item => s!"for {item} in ..."
  | encryption => "encrypt_number"
  | because cause => cause.text
  | named text => text

end RenderFault

def CipherFault.text : CipherFault → String
  | notAscii => "token contains non-ASCII characters"
  | tampered => "invalid or tampered token"
  | payloadSize bytes => s!"unexpected payload size {bytes}"

def RenderFault.message : RenderFault → String
  | undefinedVariable name => s!"Undefined variable: {name}"
  | missingKey name receiver => s!"No key '{name}' in {receiver}"
  | undefinedOperation receiver name => s!"Undefined operation '{name}' for {receiver}"
  | mismatch wanted found place =>
    let base := s!"Expected {wanted.text}, found {found}"
    match place.map Place.text with
    | none | some "" => base
    | some text => s!"{base} ({text})"
  | indexOutOfBounds index length => s!"Index {index} out of bounds for length {length}"
  | divisionByZero op => s!"Division by zero in '{op.text}'"
  | undecryptable reason => s!"Cannot decrypt number: {reason.text}"
  | unknownStatement kind => s!"Unknown node type: {kind}"
  | unknownExpression kind => s!"Unknown expression node: {kind}"
  | unknownOperator text => s!"Unknown operator: {text}"
  | tooDeep limit _ => s!"Nesting deeper than {limit} levels at line 1, column 1"
  | undefinedRemainder => "math domain error"
  | integerTooLarge => "int too large to convert to float"
  | integerTooLong =>
    s!"Exceeds the limit ({NumeralFault.digitLimit} digits) for integer string conversion; " ++
      "use sys.set_int_max_str_digits() to increase the limit"
  | repetitionTooLarge => "cannot fit 'int' into an index-sized integer"
  | signalingNaN => "cannot convert signaling NaN to float"
  | absentField typeName field => s!"'{typeName}' object has no attribute '{field}'"
  | notCallable typeName => s!"'{typeName}' object is not callable"
  | notSearchable typeName => s!"argument of type '{typeName}' is not iterable"
  | bytesSearched => "a bytes-like object is required, not 'str'"
  | notComparable typeName => s!"'<=' not supported between instances of 'int' and '{typeName}'"
  | notReal typeName => s!"must be real number, not {typeName}"
  | stackFull => "maximum recursion depth exceeded while calling a Python object"

def RenderFault.tooWide (place : RenderFault.Place) (n : Int) : RenderFault :=
  match Numeral.integerText? n with
  | some digits => .mismatch .integer64 digits (some place)
  | none => .integerTooLong

def checkInteger (place : RenderFault.Place) (n : Int) : Except RenderFault Int :=
  if Integer.fits n then .ok n else .error (.tooWide place n)

end Stencil
