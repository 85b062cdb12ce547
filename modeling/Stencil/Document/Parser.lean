import Stencil.Document.Basic
import Stencil.Expr.Parser
import Stencil.Part

/-! From the parts of a template to a document. Open blocks stand on a stack; `end` closes whatever
is on top. -/
namespace Stencil

inductive OpenBlock.Head where
  | branch (done : List Branch) (condition : Expr)
  | otherwise (done : List Branch)
  | loop (item : String) (collection : Expr)

structure OpenBlock where
  place : Location
  head : OpenBlock.Head
  body : List Node

namespace OpenBlock

def word (block : OpenBlock) : String :=
  match block.head with
  | .loop .. => "for"
  | _ => "if"

def close (block : OpenBlock) : Node :=
  match block.head with
  | .branch done condition =>
    .conditional block.place.offset (done ++ [.mk condition block.body]) none
  | .otherwise done => .conditional block.place.offset done (some block.body)
  | .loop item collection => .loop block.place.offset item collection block.body

end OpenBlock

/-- A document on the way: the open blocks, innermost first, and the nodes outside of them. -/
structure Draft where
  blocks : List OpenBlock
  nodes : List Node

namespace Draft

def empty : Draft := ⟨[], []⟩

def add (d : Draft) (node : Node) : Draft :=
  match d.blocks with
  | [] => ⟨[], d.nodes ++ [node]⟩
  | block :: rest => ⟨{ block with body := block.body ++ [node] } :: rest, d.nodes⟩

def blockLimit : Nat := 128

def push (d : Draft) (block : OpenBlock) : Except ParseFault Draft :=
  if d.blocks.length < blockLimit then .ok ⟨block :: d.blocks, d.nodes⟩
  else .error (.at (.tooDeep blockLimit) block.place)

/-- The branches before the one that an `elsif` or `else` opens now, and the blocks around. -/
def turn (d : Draft) (word : Token) : Except ParseFault (Location × List Branch × List OpenBlock) :=
  match d.blocks with
  | [] => .error (.at (.outsideIf word.text) word.place)
  | block :: rest =>
    match block.head with
    | .branch done condition => .ok (block.place, done ++ [.mk condition block.body], rest)
    | .otherwise _ => .error (.at (.afterElse word.text) word.place)
    | .loop .. => .error (.at (.insideLoop word.text) word.place)

def statement (d : Draft) (stop : Location) : List Token → Except ParseFault Draft
  | [] => .error (.at .emptyTag stop)
  | t :: rest =>
    match t.kind with
    | .keyword .if_ => do
      let condition ← Expr.ofTokens stop rest
      d.push ⟨t.place, .branch [] condition, []⟩
    | .keyword .for_ => do
      let (item, rest) ← Expr.expect stop .identifier rest
      let (_, rest) ← Expr.expect stop (.keyword .in_) rest
      let collection ← Expr.ofTokens stop rest
      d.push ⟨t.place, .loop item.text collection, []⟩
    | .keyword .elsif => do
      let (place, done, around) ← d.turn t
      let condition ← Expr.ofTokens stop rest
      return ⟨⟨place, .branch done condition, []⟩ :: around, d.nodes⟩
    | .keyword .else_ => do
      Expr.finish rest
      let (place, done, around) ← d.turn t
      return ⟨⟨place, .otherwise done, []⟩ :: around, d.nodes⟩
    | .keyword .end_ => do
      Expr.finish rest
      match d.blocks with
      | [] => .error (.at .endWithoutBlock t.place)
      | block :: around => return (⟨around, d.nodes⟩ : Draft).add block.close
    | _ => .error (.at (.unknownStatement t.text) t.place)

def part (d : Draft) : Part → Except ParseFault Draft
  | .text place content => .ok (d.add (.text place.offset content))
  | .tag kind place code => do
    let (tokens, stop) ← Token.ofCode (Part.codePlace kind place) code
    match kind with
    | .statement => d.statement stop tokens
    | .escaped => do
      let e ← Expr.ofTokens stop tokens
      return d.add (.output place.offset e true)
    | .raw => do
      let e ← Expr.ofTokens stop tokens
      return d.add (.output place.offset e false)

def finish (d : Draft) : Except ParseFault Document :=
  match d.blocks with
  | [] => .ok ⟨d.nodes⟩
  | block :: _ => .error (.at (.unclosedBlock block.word) block.place)

end Draft

namespace Document

/-- The outcome for a row of parts, with the number of tags up to the end or up to the one at
fault. -/
def ofPartsCounted (d : Draft) (count : Nat) : List Part → Except ParseFault Document × Nat
  | [] => (d.finish, count)
  | p :: rest =>
    let count' :=
      match p with
      | .text .. => count
      | .tag .. => count + 1
    match d.part p with
    | .error fault => (.error fault, count')
    | .ok d' => ofPartsCounted d' count' rest

def parse (source : String) : Except ParseFault Document :=
  match Part.ofSource source with
  | .error fault => .error fault
  | .ok (parts, _) => (ofPartsCounted .empty 0 parts).1

end Document

end Stencil
