import Stencil.ParseFault

/-! A template is a row of parts: literal text, and tags with the code between their delimiters.
Tags do not nest; a quoted string inside a tag may hold the closing delimiter. -/
namespace Stencil

inductive TagKind where
  | statement | escaped | raw
  deriving DecidableEq, Repr

def TagKind.opener : TagKind → List Char
  | statement => ['<', '%']
  | escaped => ['<', '%', '=']
  | raw => ['<', '%', '-']

inductive Part where
  | text (place : Location) (content : String)
  | tag (kind : TagKind) (place : Location) (code : String)
  deriving DecidableEq, Repr

namespace Part

def closer : List Char := ['%', '>']

def source : Part → List Char
  | text _ content => content.toList
  | tag kind _ code => kind.opener ++ code.toList ++ closer

def place : Part → Location
  | text place _ => place
  | tag _ place _ => place

def codePlace (kind : TagKind) (place : Location) : Location := place.after kind.opener

def closePlace (kind : TagKind) (place : Location) (code : String) : Location :=
  (codePlace kind place).after code.toList

def textRun : List Char → List Char
  | '<' :: '%' :: _ => []
  | c :: rest => c :: textRun rest
  | [] => []

/-- The code before the closing delimiter, `none` if the tag is left open. Inside quotes only the
same quote closes, and a backslash takes the next character with it. -/
def codeRun : Option Char → List Char → Option (List Char)
  | none, '%' :: '>' :: _ => some []
  | none, c :: rest =>
    (codeRun (if c = '"' ∨ c = '\'' then some c else none) rest).map (c :: ·)
  | some quote, '\\' :: e :: rest => (codeRun (some quote) rest).map ('\\' :: e :: ·)
  | some quote, c :: rest => (codeRun (if c = quote then none else some quote) rest).map (c :: ·)
  | _, [] => none

def kindOf : List Char → TagKind
  | '=' :: _ => .escaped
  | '-' :: _ => .raw
  | _ => .statement

def scan (place : Location) : List Char → Except ParseFault (List Part)
  | [] => .ok []
  | '<' :: '%' :: rest =>
    let kind := kindOf rest
    match codeRun none (rest.drop (kind.opener.length - 2)) with
    | none => .error (.at .unclosedTag place)
    | some code =>
      let width := kind.opener.length - 2 + code.length + 2
      match scan (place.after (('<' :: '%' :: rest).take (width + 2))) (rest.drop width) with
      | .error fault => .error fault
      | .ok parts => .ok (tag kind place (String.ofList code) :: parts)
  | c :: rest =>
    let run := textRun rest
    match scan (place.after (c :: run)) (rest.drop run.length) with
    | .error fault => .error fault
    | .ok parts => .ok (text place (String.ofList (c :: run)) :: parts)
termination_by cs => cs.length
decreasing_by all_goals simp; try omega

def ofSource (source : String) : Except ParseFault (List Part × Location) :=
  (scan .start source.toList).map fun parts => (parts, Location.start.after source.toList)

end Part
end Stencil
