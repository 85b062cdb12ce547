import Stencil.Document.Parser
import Stencil.Proofs.Document.Hole
import Stencil.Proofs.Document.Names

/-! The item of a loop is bound in the body of the loop, so that any name will do that the body does
not use. The name shows only where the collection is no list, which the fault tells with the
name. -/
namespace Stencil
open Outcome

namespace RenderFault

def unnamed : RenderFault → RenderFault
  | mismatch wanted found (some (.loopOver _)) => mismatch wanted found (some (.loopOver ""))
  | fault => fault

inductive Family where
  | undefinedVariable
  | missingKey
  | undefinedOperation
  | typeMismatch
  | indexOutOfBounds
  | divisionByZero
  | decryption
  | render
  | nestingTooDeep
  | value
  | overflow
  | attribute
  | type
  | recursion
  deriving DecidableEq, Repr

def family : RenderFault → Family
  | undefinedVariable _ => .undefinedVariable
  | missingKey .. => .missingKey
  | undefinedOperation .. => .undefinedOperation
  | mismatch .. => .typeMismatch
  | indexOutOfBounds .. => .indexOutOfBounds
  | divisionByZero _ => .divisionByZero
  | undecryptable _ => .decryption
  | unknownStatement _ | unknownExpression _ | unknownOperator _ => .render
  | tooDeep .. => .nestingTooDeep
  | undefinedRemainder | integerTooLong | signalingNaN => .value
  | integerTooLarge | repetitionTooLarge => .overflow
  | absentField .. => .attribute
  | notCallable _ | notSearchable _ | bytesSearched | notComparable _ | notReal _ => .type
  | stackFull => .recursion

theorem family_unnamed (fault : RenderFault) : fault.unnamed.family = fault.family := by
  unfold unnamed
  split <;> rfl

theorem family_eq_of_unnamed {fault fault' : RenderFault} (h : fault.unnamed = fault'.unnamed) :
    fault.family = fault'.family := by
  rw [← family_unnamed fault, h, family_unnamed]

end RenderFault

namespace Node

/-- A name that is not used in the body of a loop, and the item, come to the same in it. -/
theorem renderAll_rename_item {g : Globals} {x y : String} {body : List Node}
    (unused : y ∉ nodesFree body) (unbound : y ∉ nodesItems body) (scope : Scope) (v : Value)
    (loops depth : Nat) :
    renderAll g ((y, v) :: scope) loops depth (nodesRename (Function.update id x y) body) =
      renderAll g ((x, v) :: scope) loops depth body := by
  have agree : Scope.Agree (Function.update id x y) ((x, v) :: scope) ((y, v) :: scope)
      (nodesFree body) := by
    intro z hz
    by_cases item : z = x
    · subst item
      rw [Function.update_self, Expr.lookup_cons_self, Expr.lookup_cons_self]
    · have other : z ≠ y := fun new => unused (new ▸ hz)
      rw [Function.update_of_ne item, id, Expr.lookup_cons_of_ne other, Expr.lookup_cons_of_ne item]
  have apart : Apart (Function.update id x y) (nodesItems body) := by
    intro w hw z new
    by_cases item : z = x
    · subst item
      rw [Function.update_self] at new
      exact absurd (new ▸ hw) unbound
    · rwa [Function.update_of_ne item] at new
  exact renderAll_rename body agree apart loops depth

theorem alike_rename_item (g : Globals) (p : Nat) {x y : String} (collection : Expr)
    {body : List Node} (unused : y ∉ nodesFree body) (unbound : y ∉ nodesItems body) :
    Alike RenderFault.unnamed g [.loop p x collection body]
      [.loop p y collection (nodesRename (Function.update id x y) body)] := by
  refine alike_singleton fun scope loops depth => ?_
  rw [render, render]
  split
  · refine bimap_bind_congr rfl fun v => ?_
    cases v with
    | list items => simp only [renderAll_rename_item unused unbound]
    | _ => rfl
  · rfl

end Node

namespace Hole
open Node (nodesFree nodesItems nodesRename)

/-- The item of any loop of a document may have any other name that is no variable and no item in
its body. The variables that stand for the item get the name too, and nothing else does. The text is
the same in every scope, or there is a fault of the same family in both cases, and only the name of
an item can be different in it. -/
theorem render_rename_item (hole : Hole) (p : Nat) {x y : String} (collection : Expr)
    {body : List Node} (unused : y ∉ nodesFree body) (unbound : y ∉ nodesItems body) (g : Globals)
    (scope : Scope) :
    let document := hole.fill (.loop p x collection body)
    let renamed := hole.fill (.loop p y collection (nodesRename (Function.update id x y) body))
    (∃ text, document.render g scope = .ok text ∧ renamed.render g scope = .ok text) ∨
      ∃ fault fault', document.render g scope = .error fault ∧
      renamed.render g scope = .error fault' ∧
        fault.family = fault'.family ∧ fault.unnamed = fault'.unnamed := by
  intro document renamed
  have alike : bimap RenderFault.unnamed id (document.render g scope) =
      bimap RenderFault.unnamed id (renamed.render g scope) :=
    render_fill (Node.alike_rename_item g p collection unused unbound) hole scope
  obtain same | ⟨fault, fault', first, second, seen⟩ := ok_or_error_of_bimap alike
  · exact .inl same
  · exact .inr ⟨fault, fault', first, second, RenderFault.family_eq_of_unnamed seen, seen⟩

/-- An inner loop goes over the outer item and binds its name again. There the collection gets the
new name and the body does not. In the scope both names stand for something else. -/
theorem render_rename_item_shadowed :
    ∃ (hole : Hole) (g : Globals) (scope : Scope) (body : List Node),
      "z" ∉ nodesFree body ∧ "z" ∉ nodesItems body ∧
      let document := hole.fill (.loop 13 "x" (.name 22 "z") body)
      let renamed :=
        hole.fill (.loop 13 "z" (.name 22 "z") (nodesRename (Function.update id "x" "z") body))
      Document.parse
        "<% if z %><% for x in z %><% for x in x %><%= x %><% end %><% end %><% end %>" =
        .ok document ∧
      Document.parse
        "<% if z %><% for z in z %><% for x in z %><%= x %><% end %><% end %><% end %>" =
        .ok renamed ∧
      scope = [("x", .int 7), ("z", .list [.list [.int 1, .int 2], .list [.int 3]])] ∧
      ((∃ text, document.render g scope = .ok text ∧ renamed.render g scope = .ok text) ∨
        ∃ fault fault', document.render g scope = .error fault ∧
        renamed.render g scope = .error fault' ∧
          fault.family = fault'.family ∧ fault.unnamed = fault'.unnamed) := by
  let g : Globals := ⟨CipherKey.derived [], ⟨0, []⟩, "turbo.js", 900⟩
  let hole : Hole := ⟨[], [], [.branch [] 3 [] (.name 6 "z") [] none []]⟩
  let body : List Node := [.loop 29 "x" (.name 38 "x") [.output 42 (.name 46 "x") true]]
  have unused : "z" ∉ nodesFree body := by decide
  have unbound : "z" ∉ nodesItems body := by decide
  have renamed : nodesRename (Function.update id "x" "z") body =
      [.loop 29 "x" (.name 38 "z") [.output 42 (.name 46 "x") true]] := by
    simp [body, Node.nodesRename, Node.rename, Expr.rename]
  have first :
      Document.parse
      "<% if z %><% for x in z %><% for x in x %><%= x %><% end %><% end %><% end %>" =
      .ok (hole.fill (.loop 13 "x" (.name 22 "z") body)) := by cbv
  have second :
      Document.parse
      "<% if z %><% for z in z %><% for x in z %><%= x %><% end %><% end %><% end %>" =
      .ok (hole.fill
        (.loop 13 "z" (.name 22 "z") (nodesRename (Function.update id "x" "z") body))) := by
    rw [renamed]
    cbv
  exact ⟨hole, g, _, body, unused, unbound, first, second, rfl,
    render_rename_item hole 13 (.name 22 "z") unused unbound g _⟩

end Hole
end Stencil
