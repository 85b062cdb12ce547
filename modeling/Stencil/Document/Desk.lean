import Stencil.Document.Parser

/-! Reading tag after tag at one desk. On it lie the tokens of a tag with a mark at the next one,
the depth that the reading has come to, and the heights of the expressions made so far. A tag that
is taken up clears the desk; a fault leaves it as it is at that moment. -/
namespace Stencil

/-- An expression made at a desk, where it is known by its number. -/
structure Piece where
  number : Nat
  node : Expr

structure Desk where
  tokens : List Token
  /-- Where the tag ends. -/
  stop : Location
  /-- How many of the tokens are read. -/
  position : Nat
  depth : Nat
  /-- The heights of what is made of other pieces, by their numbers. -/
  heights : List (Nat × Nat)
  /-- How many pieces are made. -/
  made : Nat
  deriving DecidableEq, Repr

abbrev Reads := EStateM ParseFault Desk

namespace Desk

def fresh (tokens : List Token) (stop : Location) : Desk := ⟨tokens, stop, 0, 0, [], 0⟩

def rest (d : Desk) : List Token := d.tokens.drop d.position

def advanced (d : Desk) : Desk :=
  if d.position < d.tokens.length then { d with position := d.position + 1 } else d

def height (d : Desk) (p : Piece) : Nat := (d.heights.lookup p.number).getD 1

end Desk

namespace Reads
open Stencil.Expr (depthLimit startsWith)

def advance : Reads Unit := modify Desk.advanced

def expect (kind : Token.Kind) : Reads Token := do
  let d ← get
  let (t, _) ← ofExcept (Expr.expect d.stop kind d.rest)
  advance
  return t

def finish : Reads Unit := do
  let d ← get
  ofExcept (Expr.finish d.rest)

def make (node : Expr) : Reads Piece :=
  modifyGet fun d => (⟨d.made, node⟩, { d with made := d.made + 1 })

def grow (t : Token) (node : Expr) (parts : List Piece) : Reads Piece := do
  let piece ← make node
  let d ← get
  let height := 1 + (parts.map d.height).foldr max 0
  if height ≤ depthLimit then do
    set { d with heights := (piece.number, height) :: d.heights }
    return piece
  else throw (.at (.tooDeep depthLimit) t.place)

def chain (level : Nat) (operand : Reads Piece) : Nat → Piece → Reads Piece
  | 0, left => return left
  | fuel + 1, left => do
    let d ← get
    match d.rest with
    | [] => return left
    | t :: _ =>
      match t.kind with
      | .operator op =>
        if op.level = level then do
          advance
          let right ← operand
          let whole ← grow t (.binary t.place.offset op left.node right.node) [left, right]
          chain level operand fuel whole
        else return left
      | _ => return left

def tier (size : Nat) (unary : Reads Piece) : Nat → Reads Piece
  | 0 => unary
  | n + 1 => do
    let left ← tier size unary n
    chain (Operator.levels - (n + 1)) (tier size unary n) size left

def close (closing : Token.Kind) : Reads (List Piece) := do
  let _ ← expect closing
  return []

def moreItems (item : Reads Piece) (closing : Token.Kind) : Nat → Reads (List Piece)
  | 0 => close closing
  | fuel + 1 => do
    let d ← get
    if startsWith .comma d.rest then do
      advance
      let d ← get
      if startsWith closing d.rest then close closing
      else do
        let first ← item
        let others ← moreItems item closing fuel
        return first :: others
    else close closing

def items (size : Nat) (item : Reads Piece) (closing : Token.Kind) : Reads (List Piece) := do
  let d ← get
  if startsWith closing d.rest then close closing
  else do
    let first ← item
    let others ← moreItems item closing size
    return first :: others

def arguments? (size : Nat) (item : Reads Piece) : Reads (Option (List Piece)) := do
  let d ← get
  if startsWith .leftParen d.rest then do
    advance
    let found ← items size item .rightParen
    return some found
  else return none

def postfixes (size : Nat) (item : Reads Piece) : Nat → Piece → Reads Piece
  | 0, target => return target
  | fuel + 1, target => do
    let d ← get
    if startsWith .dot d.rest then do
      advance
      let d ← get
      match d.rest with
      | [] => throw (.at (.memberExpected "") d.stop)
      | t :: _ =>
        match t.kind with
        | .integer => do
          advance
          let n ← ofExcept (Expr.integerNumeral t.text)
          let whole ← grow t (.index t.place.offset target.node n) [target]
          postfixes size item fuel whole
        | .identifier => do
          advance
          let found ← arguments? size item
          let arguments := found.getD []
          let node := .member t.place.offset target.node t.text (arguments.map Piece.node)
          let whole ← grow t node (target :: arguments)
          postfixes size item fuel whole
        | _ => throw (.at (.memberExpected t.text) t.place)
    else return target

def primary (size : Nat) (item : Reads Piece) : Reads Piece := do
  let d ← get
  match d.rest with
  | [] => throw (.at .expressionExpected d.stop)
  | t :: _ =>
    let at_ := t.place.offset
    match t.kind with
    | .integer => do
      advance
      let n ← ofExcept (Expr.integerNumeral t.text)
      if Integer.fits n then make (.literal at_ (.int n))
      else throw (.at (.integerOutOfRange t.text) t.place)
    | .float => do
      advance
      let x ← ofExcept (Expr.floatNumeral t.text)
      make (.literal at_ (.float x))
    | .string => do
      advance
      make (.literal at_ (.string t.text))
    | .keyword .true => do
      advance
      make (.literal at_ (.bool true))
    | .keyword .false => do
      advance
      make (.literal at_ (.bool false))
    | .keyword .nil => do
      advance
      make (.literal at_ .null)
    | .identifier => do
      advance
      let found ← arguments? size item
      match found with
      | some arguments => grow t (.call at_ t.text (arguments.map Piece.node)) arguments
      | none => make (.name at_ t.text)
    | .leftParen => do
      advance
      let inner ← item
      let _ ← expect .rightParen
      return inner
    | .leftBracket => do
      advance
      let found ← items size item .rightBracket
      grow t (.list at_ (found.map Piece.node)) found
    | _ => throw (.at (.unexpectedToken t.text) t.place)

/-- Goes one level down and comes up again, be it with a fault. What is too deep is refused on the
way down, and the desk then stays that deep. -/
def nested {α : Type} (inner : Reads α) : Reads α := fun d =>
  let deeper := { d with depth := d.depth + 1 }
  if depthLimit < deeper.depth then
    .error (.at (.tooDeep depthLimit) (Expr.placeOf d.stop d.rest)) deeper
  else
    match inner.run deeper with
    | .ok a d' => .ok a { d' with depth := d'.depth - 1 }
    | .error fault d' => .error fault { d' with depth := d'.depth - 1 }

/-- Signs and negations before a primary expression with its members. With no level left nothing is
read, as the desk lets nothing in that deep. -/
def unary (size : Nat) : Nat → Reads Piece
  | 0 => nested (throw (.at .expressionExpected .start))
  | levels + 1 => nested do
    let d ← get
    match d.rest with
    | [] => throw (.at .expressionExpected d.stop)
    | t :: _ =>
      match Expr.unaryOperator? t.kind with
      | some op => do
        advance
        let operand ← unary size levels
        grow t (.unary t.place.offset op operand.node) [operand]
      | none => do
        let item := tier size (unary size levels) Operator.levels
        let node ← primary size item
        postfixes size item size node

def expression : Reads Expr := do
  let d ← get
  let whole ← tier d.rest.length (unary d.rest.length depthLimit) Operator.levels
  finish
  return whole.node

def statement (draft : Draft) : Reads Draft := do
  let d ← get
  match d.rest with
  | [] => throw (.at .emptyTag d.stop)
  | t :: _ =>
    match t.kind with
    | .keyword .if_ => do
      advance
      let condition ← expression
      ofExcept (draft.push ⟨t.place, .branch [] condition, []⟩)
    | .keyword .for_ => do
      advance
      let item ← expect .identifier
      let _ ← expect (.keyword .in_)
      let collection ← expression
      ofExcept (draft.push ⟨t.place, .loop item.text collection, []⟩)
    | .keyword .elsif => do
      advance
      let (place, done, around) ← ofExcept (draft.turn t)
      let condition ← expression
      return ⟨⟨place, .branch done condition, []⟩ :: around, draft.nodes⟩
    | .keyword .else_ => do
      advance
      finish
      let (place, done, around) ← ofExcept (draft.turn t)
      return ⟨⟨place, .otherwise done, []⟩ :: around, draft.nodes⟩
    | .keyword .end_ => do
      advance
      finish
      match draft.blocks with
      | [] => throw (.at .endWithoutBlock t.place)
      | block :: around => return (⟨around, draft.nodes⟩ : Draft).add block.close
    | _ => throw (.at (.unknownStatement t.text) t.place)

def take (kind : TagKind) (place : Location) (code : String) : Reads Unit := do
  let (tokens, stop) ← ofExcept (Token.ofCode (Part.codePlace kind place) code)
  set (Desk.fresh tokens stop)

def part (draft : Draft) : Part → Reads Draft
  | .text place content => return draft.add (.text place.offset content)
  | .tag kind place code => do
    take kind place code
    match kind with
    | .statement => statement draft
    | .escaped => do
      let e ← expression
      return draft.add (.output place.offset e true)
    | .raw => do
      let e ← expression
      return draft.add (.output place.offset e false)

end Reads
end Stencil
