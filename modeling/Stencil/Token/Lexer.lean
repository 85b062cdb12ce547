import Stencil.ParseFault
import Stencil.Text.Digit
import Stencil.Text.Letter

/-! From the code of a tag to its tokens. A lexeme is cut off the front of the code, so what is left
is always shorter. -/
namespace Stencil.Token

structure Lexeme where
  kind : Kind
  text : List Char
  width : Nat

def isSpace (c : Char) : Bool := c == ' ' || c == '\t' || c == '\n' || c == '\r'

def isNameStart (c : Char) : Bool := Text.isLetter c || c == '_'

def isNamePart (c : Char) : Bool := Text.isAlphanumeric c || c == '_'

def escaped (c : Char) : Char :=
  if c = 'n' then '\n' else if c = 't' then '\t' else if c = 'r' then '\r' else c

/-- The text up to the closing quote, and the number of characters read, that quote included. A
backslash takes the next character with it; a final one stands for itself. -/
def stringBody (quote : Char) : List Char → Option (List Char × Nat)
  | [] => none
  | '\\' :: e :: rest =>
    (stringBody quote rest).map fun (text, width) => (escaped e :: text, width + 2)
  | c :: rest =>
    if c = quote then some ([], 1)
    else (stringBody quote rest).map fun (text, width) => (c :: text, width + 1)

/-- Digits, and unless `afterDot` a fraction: a dot with a digit right behind it. -/
def number (afterDot : Bool) (cs : List Char) : Lexeme :=
  let whole := cs.takeWhile Text.isDigit
  match afterDot, cs.dropWhile Text.isDigit with
  | false, '.' :: d :: rest =>
    if Text.isDigit d then
      let text := whole ++ '.' :: (d :: rest).takeWhile Text.isDigit
      ⟨.float, text, text.length⟩
    else ⟨.integer, whole, whole.length⟩
  | _, _ => ⟨.integer, whole, whole.length⟩

def name (afterDot : Bool) (cs : List Char) : Lexeme :=
  let text := cs.takeWhile isNamePart
  let kind :=
    match afterDot, Keyword.ofText? (String.ofList text) with
    | false, some word => .keyword word
    | _, _ => .identifier
  ⟨kind, text, text.length⟩

/-- Operators and brackets; of two that start alike the longer one is read. -/
def symbol? : List Char → Option (Kind × List Char)
  | '=' :: '=' :: _ => some (.operator .equal, ['=', '='])
  | '!' :: '=' :: _ => some (.operator .notEqual, ['!', '='])
  | '>' :: '=' :: _ => some (.operator .greaterEqual, ['>', '='])
  | '<' :: '=' :: _ => some (.operator .lessEqual, ['<', '='])
  | '&' :: '&' :: _ => some (.operator .and, ['&', '&'])
  | '|' :: '|' :: _ => some (.operator .or, ['|', '|'])
  | '.' :: _ => some (.dot, ['.'])
  | ',' :: _ => some (.comma, [','])
  | '(' :: _ => some (.leftParen, ['('])
  | ')' :: _ => some (.rightParen, [')'])
  | '[' :: _ => some (.leftBracket, ['['])
  | ']' :: _ => some (.rightBracket, [']'])
  | '>' :: _ => some (.operator .greater, ['>'])
  | '<' :: _ => some (.operator .less, ['<'])
  | '!' :: _ => some (.not, ['!'])
  | '+' :: _ => some (.operator .add, ['+'])
  | '-' :: _ => some (.operator .subtract, ['-'])
  | '*' :: _ => some (.operator .multiply, ['*'])
  | '/' :: _ => some (.operator .divide, ['/'])
  | '%' :: _ => some (.operator .remainder, ['%'])
  | _ => none

def lexeme (afterDot : Bool) (c : Char) (rest : List Char) : Except ParseFault.Reason Lexeme :=
  match symbol? (c :: rest) with
  | some (kind, text) => .ok ⟨kind, text, text.length⟩
  | none =>
    if c = '"' ∨ c = '\'' then
      match stringBody c rest with
      | some (text, width) => .ok ⟨.string, text, width + 1⟩
      | none => .error .unterminatedString
    else if Text.isDigit c then .ok (number afterDot (c :: rest))
    else if isNameStart c then .ok (name afterDot (c :: rest))
    else .error (.unexpectedCharacter c)

def scan (afterDot : Bool) (place : Location) :
    List Char → Except ParseFault (List Token × Location)
  | [] => .ok ([], place)
  | c :: rest =>
    if isSpace c then scan afterDot (place.next c) rest
    else
      match lexeme afterDot c rest with
      | .error reason => .error (.at reason place)
      | .ok l =>
        match scan (l.kind == .dot) (place.after ((c :: rest).take l.width))
          (rest.drop (l.width - 1)) with
        | .error fault => .error fault
        | .ok (tokens, stop) => .ok (⟨l.kind, String.ofList l.text, place, l.width⟩ :: tokens, stop)
termination_by cs => cs.length
decreasing_by all_goals simp; try omega

def ofCode (place : Location) (code : String) : Except ParseFault (List Token × Location) :=
  scan false place code.toList

end Stencil.Token
