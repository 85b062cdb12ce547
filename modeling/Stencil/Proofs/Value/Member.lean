import Stencil.Operation
import Stencil.Proofs.Outcome

/-! Operations as members of values. Their names come before all entries and fields. -/
namespace Stencil

namespace Operation
variable {o : Operation} {kind : Value.Kind} {called : String}

theorem mem_all (o : Operation) : o ∈ all := by cases o <;> decide

/-- No two operations on one kind of values share a name. -/
theorem find?_of_mem (hk : kind ∈ o.kinds) (hc : called ∈ o.names) :
    find? kind called = some o := by
  have each : ∀ o ∈ all, ∀ kind ∈ o.kinds, ∀ called ∈ o.names, find? kind called = some o := by
    decide
  exact each o (mem_all o) kind hk called hc

end Operation

namespace Value
open Operation
variable {o : Operation} {called : String} {v : Value}

/-- Whatever else a value has under the name of an operation is out of reach. -/
theorem member_operation (site : Site) (hk : v.kind ∈ o.kinds) (hc : called ∈ o.names) :
    v.member site called [] = o.apply called v >>= checkResult called := by
  have found := find?_of_mem hk hc
  unfold member call
  rw [found]
  rfl

end Value
end Stencil
