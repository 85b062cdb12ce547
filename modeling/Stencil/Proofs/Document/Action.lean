import Stencil.Proofs.Document.Unplaced

/-! Parsing in two steps, up to positions: what each part says by itself, and what that does to the
open blocks. Both may fail, and a template parses where neither does and no block is left open. -/
namespace Stencil
open Outcome

inductive Action where
  | text (content : String)
  | output (expression : Expr) (escape : Bool)
  | if_ (condition : Expr)
  | elsif (condition : Expr)
  | else_
  | for_ (item : String) (collection : Expr)
  | end_

namespace Action

def ofTokens? : List Token → Option Action
  | [] => none
  | t :: rest =>
    match t.kind with
    | .keyword .if_ => (Expr.ofTokens .start rest).toOption.map if_
    | .keyword .for_ => do
      let (item, rest) ← (Expr.expect .start .identifier rest).toOption
      let (_, rest) ← (Expr.expect .start (.keyword .in_) rest).toOption
      let collection ← (Expr.ofTokens .start rest).toOption
      return for_ item.text collection
    | .keyword .elsif => (Expr.ofTokens .start rest).toOption.map elsif
    | .keyword .else_ => (Expr.finish rest).toOption.map fun _ => else_
    | .keyword .end_ => (Expr.finish rest).toOption.map fun _ => end_
    | _ => none

def ofPart? : Part → Option Action
  | .text _ content => some (text content)
  | .tag kind _ code => do
    let tokens ← (Token.scanned false code.toList).toOption
    match kind with
    | .statement => ofTokens? tokens
    | .escaped => (Expr.ofTokens .start tokens).toOption.map (output · true)
    | .raw => (Expr.ofTokens .start tokens).toOption.map (output · false)

end Action

namespace Draft

def push? (d : Draft) (head : OpenBlock.Head) : Option Draft :=
  if d.blocks.length < blockLimit then some ⟨⟨.start, head, []⟩ :: d.blocks, d.nodes⟩ else none

/-- The branch that is being filled is done, and the body starts anew under another head. -/
def turn? (d : Draft) (head : List Branch → OpenBlock.Head) : Option Draft :=
  match d.blocks with
  | ⟨place, .branch done condition, body⟩ :: around =>
    some ⟨⟨place, head (done ++ [.mk condition body]), []⟩ :: around, d.nodes⟩
  | _ => none

def pop? (d : Draft) : Option Draft :=
  match d.blocks with
  | [] => none
  | block :: around => some ((⟨around, d.nodes⟩ : Draft).add block.close)

def act? (d : Draft) : Action → Option Draft
  | .text content => some (d.add (.text 0 content))
  | .output e escape => some (d.add (.output 0 e escape))
  | .if_ condition => d.push? (.branch [] condition)
  | .elsif condition => d.turn? (.branch · condition)
  | .else_ => d.turn? .otherwise
  | .for_ item collection => d.push? (.loop item collection)
  | .end_ => d.pop?

def run? (d : Draft) : List Action → Option Draft
  | [] => some d
  | a :: rest => (d.act? a).bind (run? · rest)

theorem run?_append (d : Draft) (u v : List Action) :
    d.run? (u ++ v) = (d.run? u).bind (run? · v) := by
  induction u generalizing d with
  | nil => rfl
  | cons a u ih => simp [run?, ih, Option.bind_assoc]

theorem push_unplaced (d : Draft) (block : OpenBlock) (hb : block.body = []) :
    (d.push block).toOption.map unplaced = d.unplaced.push? block.head.unplaced := by
  obtain ⟨place, head, body⟩ := block
  subst hb
  simp only [push, push?, unplaced, List.length_map]
  split <;> rfl

theorem turn_unplaced (d : Draft) (word : Token) (head head' : List Branch → OpenBlock.Head)
    (h : ∀ done, (head done).unplaced = head' (Node.branchesUnplaced done)) :
    (d.turn word).toOption.map
        (fun (place, done, around) => unplaced ⟨⟨place, head done, []⟩ :: around, d.nodes⟩) =
      d.unplaced.turn? head' := by
  obtain ⟨blocks, nodes⟩ := d
  cases blocks with
  | nil => rfl
  | cons block around =>
    obtain ⟨place, inner, body⟩ := block
    cases inner with
    | branch done condition =>
      simp only [turn, turn?, unplaced, List.map_cons, OpenBlock.unplaced, Except.toOption,
        Option.map_some, h, OpenBlock.Head.unplaced_branch, Node.branchesUnplaced_append,
        Node.branchesUnplaced, Node.nodesUnplaced]
    | otherwise | loop => rfl

theorem pop_unplaced (d : Draft) (word : Token) :
    (match d.blocks with
      | [] => Except.error (ParseFault.at .endWithoutBlock word.place)
      | block :: around =>
        Except.ok ((⟨around, d.nodes⟩ : Draft).add block.close)).toOption.map unplaced =
      d.unplaced.pop? := by
  obtain ⟨blocks, nodes⟩ := d
  cases blocks with
  | nil => rfl
  | cons block around =>
    simp only [Except.toOption, Option.map_some, add_unplaced, OpenBlock.close_unplaced]
    rfl

theorem ofTokens_unplaced (stop : Location) (tokens : List Token) :
    (Expr.ofTokens stop tokens).toOption.map Expr.unplaced =
      (Expr.ofTokens .start (tokens.map Token.unplaced)).toOption :=
  toOption_of_bimap (Expr.ofTokens_unplaced stop tokens)

theorem expect_unplaced (stop : Location) (kind : Token.Kind) (tokens : List Token) :
    (Expr.expect stop kind tokens).toOption.map
      (Prod.map Token.unplaced (List.map Token.unplaced)) =
      (Expr.expect .start kind (tokens.map Token.unplaced)).toOption :=
  toOption_of_bimap (Expr.expect_unplaced stop kind tokens)

theorem finish_unplaced (tokens : List Token) :
    (Expr.finish tokens).toOption.map id = (Expr.finish (tokens.map Token.unplaced)).toOption :=
  toOption_of_bimap (Expr.finish_unplaced tokens)

theorem statement_unplaced (d : Draft) (stop : Location) (tokens : List Token) :
    (d.statement stop tokens).toOption.map unplaced =
      (Action.ofTokens? (tokens.map Token.unplaced)).bind d.unplaced.act? := by
  cases tokens with
  | nil => rfl
  | cons t rest =>
    obtain ⟨kind, text, place, width⟩ := t
    cases kind with
    | keyword word =>
      cases word with
      | if_ =>
        simp only [statement, List.map_cons, Action.ofTokens?, Token.unplaced_kind, Option.bind_map]
        exact toOption_bind (ofTokens_unplaced stop rest) fun c => push_unplaced d _ rfl
      | for_ =>
        simp only [statement, List.map_cons, Action.ofTokens?, Token.unplaced_kind,
          Option.bind_eq_bind, Option.bind_assoc]
        refine toOption_bind (expect_unplaced stop _ rest) ?_
        intro given
        obtain ⟨item, rest'⟩ := given
        refine toOption_bind (expect_unplaced stop _ rest') ?_
        intro given
        obtain ⟨-, rest''⟩ := given
        exact toOption_bind (ofTokens_unplaced stop rest'') fun c => push_unplaced d _ rfl
      | elsif =>
        simp only [statement, List.map_cons, Action.ofTokens?, Token.unplaced_kind, Option.bind_map]
        have turned (c : Expr) :=
          turn_unplaced d ⟨.keyword .elsif, text, place, width⟩ (.branch · c)
          (.branch · c.unplaced) fun _ => rfl
        -- here the blocks are looked at before the condition is read
        cases hturn : d.turn ⟨.keyword .elsif, text, place, width⟩ with
        | error fault =>
          rw [hturn] at turned
          rw [← ofTokens_unplaced stop rest]
          cases Expr.ofTokens stop rest with
          | error fault => rfl
          | ok c => exact turned c
        | ok r =>
          rw [hturn] at turned
          rw [ok_bind]
          refine toOption_bind (ofTokens_unplaced stop rest) fun c => ?_
          exact turned c
      | else_ =>
        simp only [statement, List.map_cons, Action.ofTokens?, Token.unplaced_kind, Option.bind_map]
        refine toOption_bind (finish_unplaced rest) fun _ => ?_
        rw [Function.comp_apply, act?,
          ← turn_unplaced d ⟨.keyword .else_, text, place, width⟩ .otherwise .otherwise
            fun _ => rfl]
        cases d.turn ⟨.keyword .else_, text, place, width⟩ <;> rfl
      | end_ =>
        simp only [statement, List.map_cons, Action.ofTokens?, Token.unplaced_kind, Option.bind_map]
        refine toOption_bind (finish_unplaced rest) fun _ => ?_
        exact pop_unplaced d ⟨.keyword .end_, text, place, width⟩
      | _ => rfl
    | _ => rfl

/-- A part is taken by a draft as what it says is, up to positions. -/
theorem part_unplaced (d : Draft) (p : Part) :
    (d.part p).toOption.map unplaced = (Action.ofPart? p).bind d.unplaced.act? := by
  cases p with
  | text place content =>
    simp only [part, Except.toOption, Option.map_some, add_unplaced]
    rfl
  | tag kind place code =>
    have scanned : ((Token.ofCode (Part.codePlace kind place) code).toOption.map
      fun found => found.1.map Token.unplaced) =
        (Token.scanned false code.toList).toOption :=
      toOption_of_bimap (Token.seen_scan false (Part.codePlace kind place) code.toList)
    rw [part, Action.ofPart?, Option.bind_eq_bind, Option.bind_assoc]
    refine toOption_bind scanned ?_
    intro given
    obtain ⟨tokens, stop⟩ := given
    cases kind with
    | statement => exact statement_unplaced d stop tokens
    | escaped =>
      simp only [Option.bind_map]
      refine toOption_bind (ofTokens_unplaced stop tokens) fun e => ?_
      simp only [pure_eq_ok, Except.toOption, Option.map_some, add_unplaced]
      rfl
    | raw =>
      simp only [Option.bind_map]
      refine toOption_bind (ofTokens_unplaced stop tokens) fun e => ?_
      simp only [pure_eq_ok, Except.toOption, Option.map_some, add_unplaced]
      rfl

def finish? (d : Draft) : Option Document := if d.blocks = [] then some ⟨d.nodes⟩ else none

theorem finish_eq (d : Draft) : d.finish.toOption.map Document.unplaced = d.unplaced.finish? := by
  obtain ⟨blocks, nodes⟩ := d
  cases blocks <;> rfl

end Draft

namespace Document

theorem ofParts_unplaced (d : Draft) (count : Nat) (parts : List Part) :
    (ofPartsCounted d count parts).1.toOption.map unplaced =
      (parts.mapM Action.ofPart?).bind fun actions =>
        (d.unplaced.run? actions).bind Draft.finish? := by
  induction parts generalizing d count with
  | nil => exact d.finish_eq
  | cons p rest ih =>
    have step := d.part_unplaced p
    rw [List.mapM_cons]
    cases hp : d.part p with
    | error fault =>
      have hout : (ofPartsCounted d count (p :: rest)).1 = .error fault := by
        simp only [ofPartsCounted, hp]
      rw [hp] at step
      rw [hout]
      cases ha : Action.ofPart? p with
      | none => rfl
      | some a =>
        rw [ha] at step
        have none : d.unplaced.act? a = none := step.symm
        cases List.mapM Action.ofPart? rest <;> simp [Draft.run?, none, Except.toOption]
    | ok d' =>
      rw [hp] at step
      obtain ⟨a, ha, taken⟩ := Option.bind_eq_some_iff.1 step.symm
      rw [ha]
      simp only [ofPartsCounted, hp, ih]
      cases List.mapM Action.ofPart? rest <;> simp [Draft.run?, taken]

theorem parse_of_scan {source : String} {parts : List Part}
    (h : Part.scan .start source.toList = .ok parts) :
    (parse source).toOption.map unplaced =
      (parts.mapM Action.ofPart?).bind fun actions =>
        (Draft.empty.run? actions).bind Draft.finish? := by
  rw [parse, Part.ofSource, h]
  exact ofParts_unplaced .empty 0 parts

/-- A template that parses is made of parts that say something, and together leave no block open. -/
theorem actions_of_parse {source : String} {d : Document} (h : parse source = .ok d) :
    ∃ parts actions, Part.scan .start source.toList = .ok parts ∧
      parts.mapM Action.ofPart? = some actions ∧
      Draft.empty.run? actions = some ⟨[], d.unplaced.nodes⟩ := by
  cases hscan : Part.scan .start source.toList with
  | error fault =>
    rw [parse, Part.ofSource, hscan] at h
    cases h
  | ok parts =>
    have same := parse_of_scan hscan
    rw [h] at same
    obtain ⟨actions, read, finished⟩ := Option.bind_eq_some_iff.1 same.symm
    obtain ⟨⟨blocks, nodes⟩, ran, closed⟩ := Option.bind_eq_some_iff.1 finished
    rw [Draft.finish?] at closed
    split at closed
    · rename_i none
      obtain rfl : blocks = [] := none
      cases closed
      exact ⟨parts, actions, rfl, read, ran⟩
    · cases closed

theorem parse_of_actions {source : String} {parts : List Part} {actions : List Action}
    {nodes : List Node} (h : Part.scan .start source.toList = .ok parts)
    (read : parts.mapM Action.ofPart? = some actions)
    (ran : Draft.empty.run? actions = some ⟨[], nodes⟩) :
    ∃ d, parse source = .ok d ∧ d.unplaced = ⟨nodes⟩ := by
  have same := parse_of_scan h
  rw [read, Option.bind_some, ran, Option.bind_some, Draft.finish?, if_pos rfl] at same
  cases hp : parse source with
  | error fault => rw [hp] at same; cases same
  | ok d =>
    rw [hp] at same
    exact ⟨d, rfl, Option.some.inj same⟩

end Document
end Stencil
