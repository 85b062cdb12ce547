import Stencil.Token.Basic
import Stencil.Text.Quoted

/-! What can be wrong with the source of a template, and the wording of each fault. -/
namespace Stencil

/-- Texts of tokens are kept as they were read; `none` stands for the end of the tag. -/
inductive ParseFault.Reason where
  | unclosedTag
  | unterminatedString
  | unexpectedCharacter (c : Char)
  | emptyTag
  | unknownStatement (found : String)
  | endWithoutBlock
  | outsideIf (word : String)
  | insideLoop (word : String)
  | afterElse (word : String)
  | unclosedBlock (word : String)
  | trailing (found : String)
  | expected (wanted : Token.Kind) (found : Option String)
  | memberExpected (found : String)
  | expressionExpected
  | unexpectedToken (found : String)
  | integerOutOfRange (digits : String)
  | tooDeep (limit : Nat)
  deriving DecidableEq, Repr

inductive NumeralFault where
  | notAnInteger (text : String)
  | notAFloat (text : String)
  | tooManyDigits (count : Nat)
  deriving DecidableEq, Repr

inductive ParseFault where
  | at (reason : ParseFault.Reason) (place : Location)
  | numeral (fault : NumeralFault)
  deriving DecidableEq, Repr

open Text (quoted quotedUpTo)

def ParseFault.Reason.message : ParseFault.Reason → String
  | unclosedTag => "Unclosed tag"
  | unterminatedString => "Unterminated string"
  | unexpectedCharacter c => s!"Unexpected character: {quoted (String.singleton c)}"
  | emptyTag => "Empty tag"
  | unknownStatement found => s!"Expected statement (if, elsif, else, for, end), got {quoted found}"
  | endWithoutBlock => "Unexpected 'end' with no open block"
  | outsideIf word => s!"Unexpected '{word}' outside of 'if'"
  | insideLoop word => s!"Unexpected '{word}' inside 'for' block"
  | afterElse word => s!"Unexpected '{word}' after 'else'"
  | unclosedBlock word => s!"Unclosed '{word}' block"
  | trailing found => s!"Unexpected {quoted found} at end of tag"
  | expected wanted (some found) => s!"Expected {wanted.label}, got {quoted found}"
  | expected wanted none => s!"Expected {wanted.label}, got end of tag"
  | memberExpected found => s!"Expected member name or index after '.', got {quoted found}"
  | expressionExpected => "Expected expression, got end of tag"
  | unexpectedToken found => s!"Unexpected token in expression: {quoted found}"
  | integerOutOfRange digits => s!"Integer literal out of range: {digits}"
  | tooDeep limit => s!"Nesting deeper than {limit} levels"

def NumeralFault.digitLimit : Nat := 4300

def NumeralFault.message : NumeralFault → String
  | notAnInteger text => s!"invalid literal for int() with base 10: {quotedUpTo 200 text}"
  | notAFloat text => s!"could not convert string to float: {quoted text}"
  | tooManyDigits count =>
    s!"Exceeds the limit ({digitLimit} digits) for integer string conversion: value has " ++
      s!"{count} digits; use sys.set_int_max_str_digits() to increase the limit"

def ParseFault.message : ParseFault → String
  | .at reason place => s!"{reason.message} at line {place.line}, column {place.column}"
  | .numeral fault => fault.message

end Stencil
