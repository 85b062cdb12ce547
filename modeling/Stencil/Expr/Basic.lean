import Stencil.Operator
import Stencil.Value.Basic

/-! Expressions. Each one carries the offset of its own token: the operator of an operation, the
name or index of a member. -/
namespace Stencil

/-- The last three are never written in a template: operators without a meaning and nodes that are
no expressions, as a tree made by hand may hold them. -/
inductive Expr where
  | literal (position : Nat) (value : Value)
  | name (position : Nat) (name : String)
  | list (position : Nat) (items : List Expr)
  | member (position : Nat) (target : Expr) (name : String) (arguments : List Expr)
  | index (position : Nat) (target : Expr) (index : Int)
  | call (position : Nat) (name : String) (arguments : List Expr)
  | unary (position : Nat) (op : UnaryOperator) (operand : Expr)
  | binary (position : Nat) (op : Operator) (left right : Expr)
  | otherUnary (position : Nat) (op : String) (operand : Expr)
  | otherBinary (position : Nat) (op : String) (left right : Expr)
  | foreign (position : Nat) (kind : String)

namespace Expr

instance : Inhabited Expr := ⟨foreign 0 ""⟩

def position : Expr → Nat
  | literal p _ | name p _ | list p _ | member p .. | index p .. | call p .. | unary p ..
  | binary p .. | otherUnary p .. | otherBinary p .. | foreign p _ => p

mutual

def height : Expr → Nat
  | literal .. => 1
  | name .. => 1
  | list _ items => 1 + heights items
  | member _ target _ arguments => 1 + max (height target) (heights arguments)
  | index _ target _ => 1 + height target
  | call _ _ arguments => 1 + heights arguments
  | unary _ _ operand => 1 + height operand
  | binary _ _ left right => 1 + max (height left) (height right)
  | otherUnary _ _ operand => 1 + height operand
  | otherBinary _ _ left right => 1 + max (height left) (height right)
  | foreign .. => 1

def heights : List Expr → Nat
  | [] => 0
  | e :: rest => max (height e) (heights rest)

end

end Expr
end Stencil
