import Stencil.Expr.Basic
import Stencil.Number.Numeral
import Stencil.Token.Lexer

/-! From the tokens of a tag to an expression, by recursive descent. `stop` is the place where the
tag ends and `size` bounds the number of tokens, and so the steps of every loop along them. All
recursion into subexpressions goes through `unaryOf`, which counts the levels that may still be
opened. -/
namespace Stencil.Expr

def depthLimit : Nat := 64

abbrev ReadsExpr := List Token → Except ParseFault (Expr × List Token)

def placeOf (stop : Location) : List Token → Location
  | [] => stop
  | t :: _ => t.place

def startsWith (kind : Token.Kind) : List Token → Bool
  | [] => false
  | t :: _ => t.kind == kind

def expect (stop : Location) (kind : Token.Kind) :
    List Token → Except ParseFault (Token × List Token)
  | [] => .error (.at (.expected kind none) stop)
  | t :: rest =>
    if t.kind = kind then .ok (t, rest) else .error (.at (.expected kind (some t.text)) t.place)

def grow (t : Token) (e : Expr) : Except ParseFault Expr :=
  if e.height ≤ depthLimit then .ok e else .error (.at (.tooDeep depthLimit) t.place)

def chain (level : Nat) (operand : ReadsExpr) :
    Nat → Expr → List Token → Except ParseFault (Expr × List Token)
  | 0, left, tokens => .ok (left, tokens)
  | _, left, [] => .ok (left, [])
  | fuel + 1, left, t :: rest =>
    match t.kind with
    | .operator op =>
      if op.level = level then do
        let (right, rest') ← operand rest
        let node ← grow t (binary t.place.offset op left right)
        chain level operand fuel node rest'
      else .ok (left, t :: rest)
    | _ => .ok (left, t :: rest)

def tier (size : Nat) (unary : ReadsExpr) : Nat → List Token → Except ParseFault (Expr × List Token)
  | 0, tokens => unary tokens
  | n + 1, tokens => do
    let (left, rest) ← tier size unary n tokens
    chain (Operator.levels - (n + 1)) (tier size unary n) size left rest

/-- Items after the first one, up to and including the closing bracket; a comma may stand before
it. -/
def moreItems (stop : Location) (item : ReadsExpr) (closing : Token.Kind) :
    Nat → List Token → Except ParseFault (List Expr × List Token)
  | 0, tokens => do
    let (_, rest) ← expect stop closing tokens
    return ([], rest)
  | fuel + 1, tokens =>
    if startsWith .comma tokens && !startsWith closing (tokens.drop 1) then do
      let (first, rest) ← item (tokens.drop 1)
      let (others, rest') ← moreItems stop item closing fuel rest
      return (first :: others, rest')
    else do
      let (_, rest) ←
        expect stop closing (if startsWith .comma tokens then tokens.drop 1 else tokens)
      return ([], rest)

def items (size : Nat) (stop : Location) (item : ReadsExpr) (closing : Token.Kind)
    (tokens : List Token) :
    Except ParseFault (List Expr × List Token) :=
  if startsWith closing tokens then .ok ([], tokens.drop 1)
  else do
    let (first, rest) ← item tokens
    let (others, rest') ← moreItems stop item closing size rest
    return (first :: others, rest')

def arguments? (size : Nat) (stop : Location) (item : ReadsExpr) (tokens : List Token) :
    Except ParseFault (Option (List Expr) × List Token) :=
  if startsWith .leftParen tokens then do
    let (found, rest) ← items size stop item .rightParen (tokens.drop 1)
    return (some found, rest)
  else .ok (none, tokens)

def integerNumeral (text : String) : Except ParseFault Int :=
  match Numeral.integer text with
  | .ok n => .ok n
  | .error fault => .error (.numeral fault)

def floatNumeral (text : String) : Except ParseFault Float :=
  match Numeral.float text with
  | .ok x => .ok x
  | .error fault => .error (.numeral fault)

def postfixes (size : Nat) (stop : Location) (item : ReadsExpr) :
    Nat → Expr → List Token → Except ParseFault (Expr × List Token)
  | fuel + 1, node, d :: rest =>
    if d.kind = .dot then
      match rest with
      | [] => .error (.at (.memberExpected "") stop)
      | t :: rest' =>
        match t.kind with
        | .integer => do
          let n ← integerNumeral t.text
          let node' ← grow t (index t.place.offset node n)
          postfixes size stop item fuel node' rest'
        | .identifier => do
          let (found, rest'') ← arguments? size stop item rest'
          let node' ← grow t (member t.place.offset node t.text (found.getD []))
          postfixes size stop item fuel node' rest''
        | _ => .error (.at (.memberExpected t.text) t.place)
    else .ok (node, d :: rest)
  | _, node, tokens => .ok (node, tokens)

theorem postfixes_idle {size : Nat} {stop : Location} {item : ReadsExpr} {fuel : Nat} {node : Expr}
    {tokens : List Token} (h : startsWith .dot tokens = false) :
    postfixes size stop item fuel node tokens = .ok (node, tokens) := by
  cases tokens with
  | nil => cases fuel <;> rfl
  | cons d rest =>
    cases fuel with
    | zero => rfl
    | succ fuel =>
      have hd : d.kind ≠ .dot := by simpa [startsWith] using h
      unfold postfixes
      exact if_neg hd

def primary (size : Nat) (stop : Location) (item : ReadsExpr) :
    List Token → Except ParseFault (Expr × List Token)
  | [] => .error (.at .expressionExpected stop)
  | t :: rest =>
    let at_ := t.place.offset
    match t.kind with
    | .integer => do
      let n ← integerNumeral t.text
      if Integer.fits n then .ok (literal at_ (.int n), rest)
      else .error (.at (.integerOutOfRange t.text) t.place)
    | .float => do
      let x ← floatNumeral t.text
      return (literal at_ (.float x), rest)
    | .string => .ok (literal at_ (.string t.text), rest)
    | .keyword .true => .ok (literal at_ (.bool true), rest)
    | .keyword .false => .ok (literal at_ (.bool false), rest)
    | .keyword .nil => .ok (literal at_ .null, rest)
    | .identifier => do
      let (found, rest') ← arguments? size stop item rest
      match found with
      | some args => do
        let node ← grow t (call at_ t.text args)
        return (node, rest')
      | none => .ok (name at_ t.text, rest')
    | .leftParen => do
      let (inner, rest') ← item rest
      let (_, rest'') ← expect stop .rightParen rest'
      return (inner, rest'')
    | .leftBracket => do
      let (found, rest') ← items size stop item .rightBracket rest
      let node ← grow t (list at_ found)
      return (node, rest')
    | _ => .error (.at (.unexpectedToken t.text) t.place)

def unaryOperator? : Token.Kind → Option UnaryOperator
  | .not => some .not
  | .operator .subtract => some .negate
  | .operator .add => some .plus
  | _ => none

def unaryOf (size : Nat) (stop : Location) :
    Nat → List Token → Except ParseFault (Expr × List Token)
  | 0, tokens => .error (.at (.tooDeep depthLimit) (placeOf stop tokens))
  | depth + 1, tokens =>
    let item := tier size (unaryOf size stop depth) Operator.levels
    match tokens with
    | [] => .error (.at .expressionExpected stop)
    | t :: rest =>
      match unaryOperator? t.kind with
      | some op => do
        let (operand, rest') ← unaryOf size stop depth rest
        let node ← grow t (unary t.place.offset op operand)
        return (node, rest')
      | none => do
        let (node, rest') ← primary size stop item (t :: rest)
        postfixes size stop item size node rest'

def read (stop : Location) (tokens : List Token) : Except ParseFault (Expr × List Token) :=
  tier tokens.length (unaryOf tokens.length stop depthLimit) Operator.levels tokens

def finish (tokens : List Token) : Except ParseFault Unit :=
  match tokens with
  | [] => .ok ()
  | t :: _ => .error (.at (.trailing t.text) t.place)

def ofTokens (stop : Location) (tokens : List Token) : Except ParseFault Expr := do
  let (e, rest) ← read stop tokens
  finish rest
  return e

end Stencil.Expr
