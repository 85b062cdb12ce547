import Stencil.Expr.Basic
import Stencil.GlobalFunction
import Stencil.Operation
import Stencil.Value.Arithmetic
import Stencil.Value.Equality
import Stencil.Value.Order

/-! The value of an expression. Names are looked up in a scope, innermost binding first; `&&` and
`||` leave out their right side where the left one decides, everything else goes from left to
right. -/
namespace Stencil

abbrev Scope := List (String × Value)

namespace Expr

def evalLimit : Nat := 128

/-- An operator with the values of both sides; the right one decides where `&&` and `||` get
here. -/
def combine (room : Nat) (op : Operator) (x y : Value) : Except RenderFault Value :=
  match op with
  | .and | .or => .ok (.bool y.truthy)
  | .equal => (x.equalWithin room y).map .bool
  | .notEqual => (x.equalWithin room y).map fun b => .bool !b
  | .less | .lessEqual | .greater | .greaterEqual => (x.ordered op y).map .bool
  | _ => x.arithmetic op y

def signed (negate : Bool) (text : String) (v : Value) : Except RenderFault Value :=
  match v with
  | .int n => if negate then (checkInteger (.unary text) (-n)).map .int else .ok v
  | .float x => .ok (if negate then .float x.neg else v)
  | _ => .error (.mismatch .number v.kind.text (some (.unary text)))

def checkDepth (site : Site) (position : Nat) : Except RenderFault Unit :=
  if evalLimit < site.depth then .error (.tooDeep evalLimit position) else .ok ()

def lookup (scope : Scope) (x : String) : Except RenderFault Value :=
  match scope.lookup x with
  | some v => .ok v
  | none => .error (.undefinedVariable x)

mutual

def eval (g : Globals) (scope : Scope) (site : Site) : Expr → Except RenderFault Value
  | literal p v => do
    checkDepth site p
    return v
  | name p x => do
    checkDepth site p
    lookup scope x
  | list p items => do
    checkDepth site p
    let values ← evalAll g scope site 0 items
    return .list values
  | member p target x arguments => do
    checkDepth site p
    let v ← eval g scope (site.part 0) target
    let args ← evalAll g scope site 1 arguments
    v.member site x args
  | index p target i => do
    checkDepth site p
    let v ← eval g scope (site.part 0) target
    v.index i
  | call p f arguments => do
    checkDepth site p
    let args ← evalAll g scope site 0 arguments
    GlobalFunction.call g f args
  | unary p op operand => do
    checkDepth site p
    let v ← eval g scope (site.part 0) operand
    match op with
    | .not => return .bool (!v.truthy)
    | .negate => signed true op.text v
    | .plus => signed false op.text v
  | binary p op left right => do
    checkDepth site p
    let x ← eval g scope (site.part 0) left
    if op = .and ∧ x.truthy = false then return .bool false
    else if op = .or ∧ x.truthy = true then return .bool true
    else
      let y ← eval g scope (site.part 1) right
      combine g.room op x y
  | otherUnary p op operand => do
    checkDepth site p
    let v ← eval g scope (site.part 0) operand
    signed false op v
  | otherBinary p op left right => do
    checkDepth site p
    let _ ← eval g scope (site.part 0) left
    let _ ← eval g scope (site.part 1) right
    .error (.unknownOperator op)
  | foreign p kind => do
    checkDepth site p
    .error (.unknownExpression kind)

def evalAll (g : Globals) (scope : Scope) (site : Site) (n : Nat) :
    List Expr → Except RenderFault (List Value)
  | [] => .ok []
  | e :: rest => do
    let v ← eval g scope (site.part n) e
    let vs ← evalAll g scope site (n + 1) rest
    return v :: vs

end

end Expr
end Stencil
