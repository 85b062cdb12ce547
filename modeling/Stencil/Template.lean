import Stencil.Context
import Stencil.Document.Parser
import Stencil.Document.Render
import Stencil.File.Resolve

/-! Compiled templates: a document and where it came from. -/
namespace Stencil

inductive LoadFault where
  | unresolvable (fault : PathFault)
  | unreadable (path : Path) (reason : File.ReadFault)
  | malformed (fault : ParseFault) (path : Option Path)

inductive Failure where
  | load (fault : LoadFault)
  | render (fault : RenderFault)
  /-- A header of a response would have several lines. -/
  | brokenHeader
  | emptyStatus
  /-- Something that is no text stands where a text is asked for. -/
  | absentMethod (typeName method : String)

def LoadFault.message : LoadFault → String
  | unresolvable fault => fault.message
  | unreadable path reason => s!"Cannot read template '{path.text}': {reason.text}"
  | malformed (.at reason place) (some path) =>
    s!"{(ParseFault.at reason place).message} in {path.text}"
  | malformed fault _ => fault.message

def Failure.message : Failure → String
  | load fault => fault.message
  | render fault => fault.message
  | brokenHeader => "Header values must not contain newline characters."
  | emptyStatus => "Empty status argument"
  | absentMethod typeName method => s!"'{typeName}' object has no attribute '{method}'"

structure Template where
  document : Document
  origin : Option Path

namespace Template

def originText (t : Template) : String := (t.origin.map Path.text).getD "<inline>"

def ofSource (source : String) : Except LoadFault Template :=
  match Document.parse source with
  | .ok document => .ok ⟨document, none⟩
  | .error fault => .error (.malformed fault none)

def sourceOf (files : File.Tree) (here : Path) (written : String) :
    Except LoadFault (Path × String) :=
  match files.resolve ⟨here, ""⟩ written with
  | .error fault => .error (.unresolvable fault)
  | .ok path =>
    match files.read path with
    | .error reason => .error (.unreadable path reason)
    | .ok source => .ok (path, source)

def load (files : File.Tree) (here : Path) (written : String) : Except LoadFault Template :=
  match sourceOf files here written with
  | .error fault => .error fault
  | .ok (path, source) =>
    match Document.parse source with
    | .ok document => .ok ⟨document, some path⟩
    | .error fault => .error (.malformed fault (some path))

def compile (files : File.Tree) (key : Path) : Except LoadFault Template := load files .top key.text

def render (g : Globals) (t : Template) (data : Option Host) (named : List (String × Host)) :
    Except RenderFault String := do
  let scope ← Context.build data named
  t.document.render g scope

end Template
end Stencil
