import Stencil.RenderFault

/-! The interpreter walks through a value by calls within calls, and its stack has room for so many
frames. -/
namespace Stencil.Value

/-- Frames on the way to what is inside a list or a mapping: the results come one by one from a
generator that is read by another call. -/
def rowFrames : Nat := 3

def pairFrames : Nat := 1

def enter (room frames : Nat) : Except RenderFault Nat :=
  if frames ≤ room then .ok (room - frames) else .error .stackFull

end Stencil.Value
