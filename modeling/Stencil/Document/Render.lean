import Stencil.Document.Basic
import Stencil.Expr.Eval
import Stencil.Text.Markup

/-! Rendering: a document and a scope give a row of pieces, which make up the text. The first fault
ends a render, and nothing of it is kept. -/
namespace Stencil

def gatherOnto {ε α β : Type} (f : α → Except ε (List β)) (done : List β) :
    List α → Except ε (List β)
  | [] => .ok done.reverse
  | x :: rest =>
    match f x with
    | .error fault => .error fault
    | .ok more => gatherOnto f (more.reverse ++ done) rest

def gather {ε α β : Type} (f : α → Except ε (List β)) (items : List α) : Except ε (List β) :=
  gatherOnto f [] items

theorem gatherOnto_eq {ε α β : Type} (f : α → Except ε (List β)) (done : List β) (items : List α) :
    gatherOnto f done items = (gather f items).map (done.reverse ++ ·) := by
  unfold gather
  induction items generalizing done with
  | nil => simp [gatherOnto, Except.map]
  | cons x rest ih =>
    unfold gatherOnto
    cases f x with
    | error fault => rfl
    | ok more =>
      simp only [List.append_nil]
      rw [ih (more.reverse ++ done), ih more.reverse]
      cases gatherOnto f [] rest <;> simp [Except.map]

theorem gather_cons {ε α β : Type} (f : α → Except ε (List β)) (x : α) (rest : List α) :
    gather f (x :: rest) = (f x).bind fun more => (gather f rest).map (more ++ ·) := by
  rw [gather, gatherOnto]
  cases f x with
  | error fault => rfl
  | ok more => simpa [Except.bind] using gatherOnto_eq f more.reverse rest

namespace Node

def renderLimit : Nat := 128

def shown (room : Nat) (escape : Bool) (v : Value) : Except RenderFault (List String) :=
  (v.display room).map fun s => [if escape then Text.escapeMarkup s else s]

mutual

/-- `loops` and `depth` count the open loops and the open blocks. -/
def render (g : Globals) (scope : Scope) (loops depth : Nat) :
    Node → Except RenderFault (List String)
  | text _ content => .ok [content]
  | output _ e escape => do
    let v ← e.eval g scope ⟨loops, []⟩
    shown g.room escape v
  | conditional position branches otherwise =>
    if depth < renderLimit then do
      match ← renderBranches g scope loops (depth + 1) branches with
      | some pieces => return pieces
      | none => renderOtherwise g scope loops (depth + 1) otherwise
    else .error (.tooDeep renderLimit position)
  | loop position item collection body =>
    if depth < renderLimit then do
      let v ← collection.eval g scope ⟨loops, []⟩
      match v with
      | .list items =>
        gather (fun x => renderAll g ((item, x) :: scope) (loops + 1) (depth + 1) body) items
      | other => .error (.mismatch (.kind .list) other.kind.text (some (.loopOver item)))
    else .error (.tooDeep renderLimit position)
  | foreign kind => .error (.unknownStatement kind)

def renderAll (g : Globals) (scope : Scope) (loops depth : Nat) :
    List Node → Except RenderFault (List String)
  | [] => .ok []
  | node :: rest => do
    let pieces ← render g scope loops depth node
    let others ← renderAll g scope loops depth rest
    return pieces ++ others

def renderBranches (g : Globals) (scope : Scope) (loops depth : Nat) :
    List Branch → Except RenderFault (Option (List String))
  | [] => .ok none
  | .mk condition body :: rest => do
    let v ← condition.eval g scope ⟨loops, []⟩
    if v.truthy then
      let pieces ← renderAll g scope loops depth body
      return some pieces
    else renderBranches g scope loops depth rest

def renderOtherwise (g : Globals) (scope : Scope) (loops depth : Nat) :
    Option (List Node) → Except RenderFault (List String)
  | none => .ok []
  | some body => renderAll g scope loops depth body

end

end Node

namespace Document

def pieces (g : Globals) (d : Document) (scope : Scope) : Except RenderFault (List String) :=
  Node.renderAll g scope 0 0 d.nodes

def render (g : Globals) (d : Document) (scope : Scope) : Except RenderFault String :=
  (d.pieces g scope).map String.join

end Document
end Stencil
