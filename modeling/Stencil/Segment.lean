import Stencil.Part

/-! The finest cut of a template: literal text, the delimiters of a tag, the code between them, and
the end. Segments hold what was read, so they can be put together again. -/
namespace Stencil

inductive Segment.Kind where
  | text
  | opener (kind : TagKind)
  | code (kind : TagKind)
  | closer
  | stop
  deriving DecidableEq, Repr

structure Segment where
  kind : Segment.Kind
  content : List Char
  place : Location
  deriving DecidableEq, Repr

namespace Segment

def ofPart : Part → List Segment
  | .text place content => [⟨.text, content.toList, place⟩]
  | .tag kind place code =>
    [⟨.opener kind, kind.opener, place⟩, ⟨.code kind, code.toList, Part.codePlace kind place⟩,
      ⟨.closer, Part.closer, Part.closePlace kind place code⟩]

def ofSource (source : String) : Except ParseFault (List Segment) :=
  (Part.ofSource source).map fun (parts, stop) => parts.flatMap ofPart ++ [⟨.stop, [], stop⟩]

def contents (segments : List Segment) : List Char := segments.flatMap content

end Segment
end Stencil
