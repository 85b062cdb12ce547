import Stencil.File.Path
import Stencil.File.Utf8

/-! Files, directories and symbolic links, and reading a text from a file. -/
namespace Stencil

inductive File.Entry where
  | file (bytes : List UInt8)
  | directory
  /-- Stands for the path that is written in it, seen from where the link is. -/
  | link (target : String)
  deriving DecidableEq, Repr

structure File.Tree where
  entries : List (Path × File.Entry)

namespace File

inductive ReadFault where
  | absent
  | isDirectory
  | notDirectory
  | nameTooLong
  | tooManyLinks
  | notText (fault : Utf8.Fault)
  deriving DecidableEq, Repr

def ReadFault.text : ReadFault → String
  | absent => "No such file or directory"
  | isDirectory => "Is a directory"
  | notDirectory => "Not a directory"
  | nameTooLong => "File name too long"
  | tooManyLinks => "Too many levels of symbolic links"
  | notText fault => s!"not valid UTF-8 ({fault.text})"

/-- Lines may end in a carriage return, a line feed or both; all become line feeds. -/
def unifyLines : List Char → List Char
  | '\r' :: '\n' :: rest => '\n' :: unifyLines rest
  | '\r' :: rest => '\n' :: unifyLines rest
  | c :: rest => c :: unifyLines rest
  | [] => []

def textOf (bytes : List UInt8) : Except ReadFault String :=
  match Utf8.decode bytes with
  | .ok cs => .ok (String.ofList (unifyLines cs))
  | .error fault => .error (.notText fault)

namespace Tree

def empty : Tree := ⟨[(.top, .directory)]⟩

def find? (t : Tree) (p : Path) : Option Entry := t.entries.lookup p

def put (t : Tree) (p : Path) (e : Entry) : Tree :=
  ⟨(p, e) :: t.entries.filter fun entry => entry.1 != p⟩

def ensureDirectory (t : Tree) (p : Path) : Tree :=
  if (t.find? p).isSome then t else t.put p .directory

def makeDirectory (t : Tree) (p : Path) : Tree := (p.above ++ [p]).foldl ensureDirectory t

def write (t : Tree) (p : Path) (bytes : List UInt8) : Tree :=
  (p.above.foldl ensureDirectory t).put p (.file bytes)

def delete (t : Tree) (p : Path) : Tree := ⟨t.entries.filter fun entry => entry.1 != p⟩

/-- What a file holds that lies behind these steps. `behind` goes on after a link: from the
directory its target starts at, through the target and the steps that are left. -/
def descend (t : Tree) (behind : Path → List String → Except ReadFault (List UInt8)) (p : Path) :
    List String → Except ReadFault (List UInt8)
  | [] => .error .isDirectory
  | name :: rest =>
    if name = "" ∨ name = "." then t.descend behind p rest
    else if name = ".." then t.descend behind p.parent rest
    else
      match t.find? (p.down name) with
      | some .directory => t.descend behind (p.down name) rest
      | some (.file bytes) => if rest = [] then .ok bytes else .error .notDirectory
      | some (.link target) =>
        behind (if Path.startsAtTop target then .top else p) (Path.stepsOf target ++ rest)
      | none => .error (if Path.nameLimit < name.utf8ByteSize then .nameTooLong else .absent)

def descendLinks (t : Tree) : Nat → Path → List String → Except ReadFault (List UInt8)
  | 0 => t.descend fun _ _ => .error .tooManyLinks
  | links + 1 => t.descend (t.descendLinks links)

def linkLimit : Nat := 40

def bytes (t : Tree) (p : Path) : Except ReadFault (List UInt8) :=
  if Path.textLimit < p.text.utf8ByteSize then .error .nameTooLong
  else t.descendLinks linkLimit .top p.names

def read (t : Tree) (p : Path) : Except ReadFault String := do
  textOf (← t.bytes p)

end Tree
end File
end Stencil
