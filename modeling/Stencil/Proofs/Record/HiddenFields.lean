import Mathlib
import Stencil.Proofs.Record.Revealed

/-! Hidden fields of records: templates do not read them. They show only where records are compared
with each other, and where a field takes the place of something that is asked of a record. -/
namespace Stencil

def Record.reads (fields : List (String × Host)) (allowed : Option (List String))
    (attributes : List (String × Host)) (name : String) : Bool :=
  match isVisible fields allowed attributes name with
  | .ok visible => visible
  | .error _ => false

/-- Covers all fields that templates cannot read, and what is made of them. -/
def Veil.hidden : Veil :=
  ⟨fun fields allowed attributes name => !Record.reads fields allowed attributes name,
    fun _ => true, fun _ _ => false⟩

/-- Covers the fields only, and not those that take the place of something else. -/
def Veil.fields : Veil where
  field fields allowed attributes name :=
    !Record.ownNames.contains name && hidden.field fields allowed attributes name
  computed _ := false
  relation _ _ := false

end Stencil
