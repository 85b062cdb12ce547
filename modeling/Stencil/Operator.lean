/-! The operators of expressions. All binary operators associate to the left; a higher level binds
tighter. -/
namespace Stencil

inductive Operator where
  | or | and
  | equal | notEqual
  | less | lessEqual | greater | greaterEqual
  | add | subtract
  | multiply | divide | remainder
  deriving DecidableEq, Repr

namespace Operator

def text : Operator → String
  | or => "||" | and => "&&"
  | equal => "==" | notEqual => "!="
  | less => "<" | lessEqual => "<=" | greater => ">" | greaterEqual => ">="
  | add => "+" | subtract => "-"
  | multiply => "*" | divide => "/" | remainder => "%"

def all : List Operator :=
  [or, and, equal, notEqual, less, lessEqual, greater, greaterEqual, add, subtract,
    multiply, divide, remainder]

def ofText? (s : String) : Option Operator := all.find? fun op => op.text == s

/-- Number of binding levels; the operators of level zero bind loosest. -/
def levels : Nat := 6

def level : Operator → Nat
  | or => 0
  | and => 1
  | equal | notEqual => 2
  | less | lessEqual | greater | greaterEqual => 3
  | add | subtract => 4
  | multiply | divide | remainder => 5

theorem level_lt (op : Operator) : op.level < levels := by cases op <;> decide

end Operator

inductive UnaryOperator where
  | not | negate | plus
  deriving DecidableEq, Repr

namespace UnaryOperator

def text : UnaryOperator → String
  | not => "!" | negate => "-" | plus => "+"

def all : List UnaryOperator := [not, negate, plus]

def ofText? (s : String) : Option UnaryOperator := all.find? fun op => op.text == s

end UnaryOperator
end Stencil
