/-! Finding a text inside another, and removing every occurrence of it, from left to right and
without overlap. -/
namespace Stencil.Text

def occurs (part : List Char) : List Char → Bool
  | [] => part.isEmpty
  | c :: rest => part.isPrefixOf (c :: rest) || occurs part rest

/-- `skip` characters at the front belong to an occurrence that is being removed. -/
def removeFrom (gone : List Char) : Nat → List Char → List Char
  | _, [] => []
  | skip + 1, _ :: rest => removeFrom gone skip rest
  | 0, c :: rest =>
    if gone.isPrefixOf (c :: rest) then removeFrom gone (gone.length - 1) rest
    else c :: removeFrom gone 0 rest

def remove (gone cs : List Char) : List Char :=
  match gone with
  | [] => cs
  | _ => removeFrom gone 0 cs

example : remove "aa".toList "aaabaa".toList = "ab".toList := by decide

end Stencil.Text
