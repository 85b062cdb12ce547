/-! Absolute paths, and the steps of a path as it is written. -/
namespace Stencil

structure Path where
  names : List String
  deriving DecidableEq, Repr

namespace Path

def top : Path := ⟨[]⟩

def text (p : Path) : String := "/" ++ "/".intercalate p.names

def parent (p : Path) : Path := ⟨p.names.dropLast⟩

def down (p : Path) (name : String) : Path := ⟨p.names ++ [name]⟩

def step (p : Path) (name : String) : Path :=
  if name = "" ∨ name = "." then p
  else if name = ".." then p.parent
  else p.down name

/-- The steps between slashes. A written path may be relative and hold `.`, `..` and empty steps. -/
def stepsOf (written : String) : List String := (written.toList.splitOn '/').map String.ofList

def startsAtTop (written : String) : Bool := written.toList.head? == some '/'

def nameLimit : Nat := 255
def textLimit : Nat := 4095

def above (p : Path) : List Path := (List.range p.names.length).map fun n => ⟨p.names.take n⟩

end Path
end Stencil
