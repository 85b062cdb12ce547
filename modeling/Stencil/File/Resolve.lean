import Stencil.File.Tree
import Stencil.Text.Quoted

/-! From a path as it is written to the path of what it names: links are followed, and all that is
not there is taken by its text. -/
namespace Stencil

inductive PathFault where
  | nullByte
  /-- A link leads back to itself. -/
  | linkLoop (path : Path)
  deriving DecidableEq, Repr

def PathFault.message : PathFault → String
  | nullByte => "embedded null byte"
  | linkLoop path => s!"Symlink loop from {Text.quoted path.text}"

namespace File

/-- Where written paths start: a directory, and a way on from it that is itself only written. -/
structure Base where
  here : Path
  root : String
  deriving DecidableEq, Repr

namespace Base

def start (base : Base) (written : String) : Path :=
  if Path.startsAtTop written || Path.startsAtTop base.root then .top else base.here

def steps (base : Base) (written : String) : List String :=
  if Path.startsAtTop written then Path.stepsOf written
  else Path.stepsOf base.root ++ Path.stepsOf written

end Base

namespace Tree

def hasNull (name : String) : Bool := name.toList.contains '\x00'

/-- Goes along these steps; `behind` tells where a link leads. The flag is down if a link was met
within itself: from there on the steps count by their text alone. -/
def follow (t : Tree) (behind : Path → Path → List String → Except PathFault (Path × Bool))
    (p : Path) : List String → Except PathFault (Path × Bool)
  | [] => .ok (p, true)
  | name :: rest =>
    if name = "" ∨ name = "." then t.follow behind p rest
    else if name = ".." then t.follow behind p.parent rest
    else if hasNull name then .error .nullByte
    else
      match t.find? (p.down name) with
      | some (.link target) =>
        match behind (p.down name) (if Path.startsAtTop target then .top else p)
            (Path.stepsOf target) with
        | .ok (q, true) => t.follow behind q rest
        | .ok (q, false) => .ok (rest.foldl Path.step q, false)
        | .error fault => .error fault
      | _ => t.follow behind (p.down name) rest

/-- Goes on within the links of `pending`. So many more can be met in them; the tree has no more
links than entries. -/
def followLinks (t : Tree) : Nat → List Path → Path → List String → Except PathFault (Path × Bool)
  | 0, _ => t.follow fun link _ _ => .ok (link, false)
  | links + 1, pending => t.follow fun link start steps =>
    if link ∈ pending then .ok (link, false) else t.followLinks links (link :: pending) start steps

def walk (t : Tree) (base : Base) (written : String) : Except PathFault (Path × Bool) :=
  t.followLinks t.entries.length [] (base.start written) (base.steps written)

/-- The path that is meant by a written one. It may be that of nothing, but no loop lies on it. -/
def resolve (t : Tree) (base : Base) (written : String) : Except PathFault Path :=
  match t.walk base written with
  | .error fault => .error fault
  | .ok (p, _) =>
    if p.names.any hasNull then .error .nullByte
    else
      match t.bytes p with
      | .error .tooManyLinks => .error (.linkLoop p)
      | _ => .ok p

end Tree
end File
end Stencil
