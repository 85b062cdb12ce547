import Stencil.Operator
import Stencil.Text.Location

/-! Tokens of the code inside a tag. -/
namespace Stencil

inductive Keyword where
  | if_ | elsif | else_ | for_ | in_ | end_ | true | false | nil
  deriving DecidableEq, Repr

namespace Keyword

def text : Keyword → String
  | if_ => "if" | elsif => "elsif" | else_ => "else" | for_ => "for" | in_ => "in" | end_ => "end"
  | true => "true" | false => "false" | nil => "nil"

def all : List Keyword := [if_, elsif, else_, for_, in_, end_, true, false, nil]

def ofText? (s : String) : Option Keyword := all.find? fun k => k.text == s

theorem ofText?_text (k : Keyword) : ofText? k.text = some k := by cases k <;> decide

end Keyword

namespace Token

inductive Kind where
  | integer | float | string | identifier
  | dot | comma | leftParen | rightParen | leftBracket | rightBracket
  | not
  | operator (op : Operator)
  | keyword (word : Keyword)
  deriving DecidableEq, Repr

def Kind.label : Kind → String
  | integer => "INTEGER" | float => "FLOAT" | string => "STRING" | identifier => "IDENTIFIER"
  | dot => "DOT" | comma => "COMMA"
  | leftParen => "LPAREN" | rightParen => "RPAREN"
  | leftBracket => "LBRACKET" | rightBracket => "RBRACKET"
  | not => "NOT"
  | operator op =>
    match op with
    | .equal => "EQUALS_EQUALS" | .notEqual => "NOT_EQUALS"
    | .greater => "GT" | .greaterEqual => "GTE" | .less => "LT" | .lessEqual => "LTE"
    | .and => "AND" | .or => "OR"
    | .add => "PLUS" | .subtract => "MINUS"
    | .multiply => "MULTIPLY" | .divide => "DIVIDE" | .remainder => "MODULO"
  | keyword word =>
    match word with
    | .if_ => "IF" | .elsif => "ELSIF" | .else_ => "ELSE" | .for_ => "FOR" | .in_ => "IN"
    | .end_ => "END" | .true => "TRUE" | .false => "FALSE" | .nil => "NIL"

end Token

/-- A token stands at `place` and covers `width` characters of source; `text` is what it says, for
a string literal without its quotes and escapes. -/
structure Token where
  kind : Token.Kind
  text : String
  place : Location
  width : Nat
  deriving DecidableEq, Repr

end Stencil
