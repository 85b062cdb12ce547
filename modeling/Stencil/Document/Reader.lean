import Stencil.Document.Desk

/-! Reading one template after another, with a count of tags on the side. -/
namespace Stencil

/-- A reader of templates keeps its desk, and remembers how many tags the last template had that
could be split up. -/
structure Reader where
  desk : Desk
  tagCount : Nat
  deriving DecidableEq, Repr

namespace Reader

def start : Reader := ⟨.fresh [] .start, 0⟩

def parts (r : Reader) (draft : Draft) : List Part → Except ParseFault Document × Reader
  | [] => (draft.finish, r)
  | p :: rest =>
    let count :=
      match p with
      | .text .. => r.tagCount
      | .tag .. => r.tagCount + 1
    match (Reads.part draft p).run r.desk with
    | .error fault desk => (.error fault, ⟨desk, count⟩)
    | .ok draft' desk => parts ⟨desk, count⟩ draft' rest

def parse (r : Reader) (source : String) : Except ParseFault Document × Reader :=
  match Part.ofSource source with
  | .error fault => (.error fault, r)
  | .ok (found, _) => parts { r with tagCount := 0 } .empty found

/-- The message of the fault that a template has, if any; faulty numerals stay faults. -/
def validate (r : Reader) (source : String) : Except ParseFault (Option String) × Reader :=
  let (outcome, r') := r.parse source
  match outcome with
  | .ok _ => (.ok none, r')
  | .error (.at reason place) => (.ok (some (ParseFault.message (.at reason place))), r')
  | .error (.numeral fault) => (.error (.numeral fault), r')

def tags (source : String) : Except ParseFault (List String) :=
  (Part.ofSource source).map fun (parts, _) =>
    parts.filterMap fun p =>
      match p with
      | .text .. => none
      | .tag .. => some (String.ofList p.source)

end Reader
end Stencil
