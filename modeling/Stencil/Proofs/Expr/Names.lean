import Stencil.Expr.Eval

/-! The variables of an expression. Evaluation sees nothing of a scope but what the variables stand
for, and nothing of a variable but what it stands for. -/
namespace Stencil

namespace Expr

mutual

/-- The names of all variables. Members, functions and operations have names that are no
variables. -/
def names : Expr → List String
  | literal .. | foreign .. => []
  | name _ x => [x]
  | list _ items => allNames items
  | member _ target _ arguments => names target ++ allNames arguments
  | index _ target _ => names target
  | call _ _ arguments => allNames arguments
  | unary _ _ operand | otherUnary _ _ operand => names operand
  | binary _ _ left right | otherBinary _ _ left right => names left ++ names right

def allNames : List Expr → List String
  | [] => []
  | e :: rest => names e ++ allNames rest

end

mutual

def rename (ρ : String → String) : Expr → Expr
  | literal p v => literal p v
  | name p x => name p (ρ x)
  | list p items => list p (allRename ρ items)
  | member p target x arguments => member p (rename ρ target) x (allRename ρ arguments)
  | index p target i => index p (rename ρ target) i
  | call p f arguments => call p f (allRename ρ arguments)
  | unary p op operand => unary p op (rename ρ operand)
  | binary p op left right => binary p op (rename ρ left) (rename ρ right)
  | otherUnary p op operand => otherUnary p op (rename ρ operand)
  | otherBinary p op left right => otherBinary p op (rename ρ left) (rename ρ right)
  | foreign p kind => foreign p kind

def allRename (ρ : String → String) : List Expr → List Expr
  | [] => []
  | e :: rest => rename ρ e :: allRename ρ rest

end

mutual

@[simp] theorem rename_id (e : Expr) : e.rename id = e := by
  cases e with
  | literal | name | foreign => rfl
  | list p items => rw [rename, allRename_id items]
  | member p target x arguments => rw [rename, rename_id target, allRename_id arguments]
  | index p target i => rw [rename, rename_id target]
  | call p f arguments => rw [rename, allRename_id arguments]
  | unary p op operand => rw [rename, rename_id operand]
  | binary p op left right => rw [rename, rename_id left, rename_id right]
  | otherUnary p op operand => rw [rename, rename_id operand]
  | otherBinary p op left right => rw [rename, rename_id left, rename_id right]

@[simp] theorem allRename_id (es : List Expr) : allRename id es = es := by
  cases es with
  | nil => rfl
  | cons e rest => rw [allRename, rename_id e, allRename_id rest]

end

end Expr

/-- A name comes to the same in one scope as its new name does in another. Where it stands for
nothing, it is the same name. -/
def Scope.Agree (ρ : String → String) (s t : Scope) (names : List String) : Prop :=
  ∀ x ∈ names, Expr.lookup t (ρ x) = Expr.lookup s x

theorem Scope.agree_append_iff {ρ : String → String} {s t : Scope} {u v : List String} :
    Agree ρ s t (u ++ v) ↔ Agree ρ s t u ∧ Agree ρ s t v := List.forall_mem_append

namespace Expr
open Scope (Agree agree_append_iff)
variable {g : Globals} {ρ : String → String} {s t : Scope}

theorem lookup_cons_self (s : Scope) (x : String) (v : Value) : lookup ((x, v) :: s) x = .ok v := by
  simp [lookup]

theorem lookup_cons_of_ne {x y : String} (h : y ≠ x) (s : Scope) (v : Value) :
    lookup ((x, v) :: s) y = lookup s y := by
  have other : (y == x) = false := by simpa using h
  simp [lookup, List.lookup_cons, other]

mutual

theorem eval_rename (e : Expr) (site : Site) (agree : Agree ρ s t e.names) :
    eval g t site (e.rename ρ) = eval g s site e := by
  cases e with
  | literal | foreign => rfl
  | name p x => rw [rename, eval, eval, agree x List.mem_cons_self]
  | list p items => rw [rename, eval, eval, evalAll_rename items site 0 agree]
  | member p target x arguments =>
    obtain ⟨first, others⟩ := agree_append_iff.1 agree
    rw [rename, eval, eval, eval_rename target _ first, evalAll_rename arguments site 1 others]
  | index p target i => rw [rename, eval, eval, eval_rename target _ agree]
  | call p f arguments => rw [rename, eval, eval, evalAll_rename arguments site 0 agree]
  | unary p op operand => rw [rename, eval, eval, eval_rename operand _ agree]
  | binary p op left right =>
    obtain ⟨first, second⟩ := agree_append_iff.1 agree
    rw [rename, eval, eval, eval_rename left _ first, eval_rename right _ second]
  | otherUnary p op operand => rw [rename, eval, eval, eval_rename operand _ agree]
  | otherBinary p op left right =>
    obtain ⟨first, second⟩ := agree_append_iff.1 agree
    rw [rename, eval, eval, eval_rename left _ first, eval_rename right _ second]

theorem evalAll_rename (es : List Expr) (site : Site) (n : Nat)
    (agree : Agree ρ s t (allNames es)) :
    evalAll g t site n (allRename ρ es) = evalAll g s site n es := by
  cases es with
  | nil => rfl
  | cons e rest =>
    obtain ⟨first, others⟩ := agree_append_iff.1 agree
    rw [allRename, evalAll, evalAll, eval_rename e _ first, evalAll_rename rest site (n + 1) others]

end

end Expr
end Stencil
