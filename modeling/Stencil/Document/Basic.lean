import Stencil.Expr.Basic

/-! Parsed templates: literal text, output, conditionals and loops. -/
namespace Stencil

mutual

/-- The last one is never written in a template: a node that is no statement, as a tree made by hand
may hold it. -/
inductive Node where
  | text (position : Nat) (content : String)
  | output (position : Nat) (expression : Expr) (escape : Bool)
  | conditional (position : Nat) (branches : List Branch) (otherwise : Option (List Node))
  | loop (position : Nat) (item : String) (collection : Expr) (body : List Node)
  | foreign (kind : String)

inductive Branch where
  | mk (condition : Expr) (body : List Node)

end

instance : Inhabited Node := ⟨.foreign ""⟩

namespace Branch

def condition : Branch → Expr
  | mk condition _ => condition

def body : Branch → List Node
  | mk _ body => body

@[simp] theorem condition_mk (condition : Expr) (body : List Node) :
    (mk condition body).condition = condition := rfl

@[simp] theorem body_mk (condition : Expr) (body : List Node) : (mk condition body).body = body :=
  rfl

end Branch

structure Document where
  nodes : List Node

end Stencil
