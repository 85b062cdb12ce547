import Mathlib.Logic.Relation
import Stencil.Document.Render
import Stencil.Proofs.Expr.Steps

/-! The course of a render, moment by moment. Each moment has something to render or to evaluate,
and leads to moments that have less. A fault is raised at one moment and ends all those that led
there. -/
namespace Stencil
open Outcome

/-- A row is gathered up to the first of its items that fails. -/
theorem gather_eq_error_iff {ε α β : Type} {f : α → Except ε (List β)} {items : List α}
    {fault : ε} :
    gather f items = .error fault ↔
      ∃ before x after pieces, items = before ++ x :: after ∧ gather f before = .ok pieces ∧
        f x = .error fault := by
  induction items with
  | nil => simp [gather, gatherOnto]
  | cons x rest ih =>
    rw [gather_cons]
    constructor
    · intro failed
      cases first : f x with
      | error fault' =>
        rw [first] at failed
        cases failed
        exact ⟨[], x, rest, [], rfl, rfl, first⟩
      | ok pieces =>
        rw [first] at failed
        obtain ⟨before, y, after, others, rfl, gathered, fails⟩ := ih.1 (map_eq_error_iff.1 failed)
        refine ⟨x :: before, y, after, pieces ++ others, rfl, ?_, fails⟩
        rw [gather_cons, first, gathered]
        rfl
    · intro given
      obtain ⟨before, y, after, pieces, split, gathered, fails⟩ := given
      cases before with
      | nil =>
        cases split
        rw [fails]
        rfl
      | cons b before =>
        cases split
        rw [gather_cons] at gathered
        obtain ⟨more, first, gathered⟩ := bind_eq_ok_iff.1 gathered
        obtain ⟨others, gathered, _⟩ := map_eq_ok_iff.1 gathered
        rw [first]
        exact map_eq_error_iff.2 (ih.2 ⟨before, y, after, others, rfl, gathered, fails⟩)

/-- What there is to do at one time: statements, the branches of a conditional or an expression,
with the scope and the place in the template. -/
inductive Moment where
  | nodes (scope : Scope) (loops depth : Nat) (nodes : List Node)
  | node (scope : Scope) (loops depth : Nat) (node : Node)
  | branches (scope : Scope) (loops depth : Nat) (branches : List Branch)
  | expression (scope : Scope) (site : Site) (e : Expr)

namespace Moment

/-- A moment that comes of another one, all before it having gone well. -/
inductive Next (g : Globals) : Moment → Moment → Prop where
  | first {scope : Scope} {loops depth : Nat} (n : Node) (rest : List Node) :
      Next g (nodes scope loops depth (n :: rest)) (node scope loops depth n)
  | rest {scope : Scope} {loops depth : Nat} {n : Node} (rest : List Node) {pieces : List String} :
      n.render g scope loops depth = .ok pieces →
      Next g (nodes scope loops depth (n :: rest)) (nodes scope loops depth rest)
  | output {scope : Scope} {loops depth : Nat} (p : Nat) (e : Expr) (escape : Bool) :
      Next g (node scope loops depth (.output p e escape)) (expression scope ⟨loops, []⟩ e)
  | branches {scope : Scope} {loops depth : Nat} (p : Nat) (bs : List Branch)
      (otherwise : Option (List Node)) :
      depth < Node.renderLimit →
      Next g (node scope loops depth (.conditional p bs otherwise))
        (branches scope loops (depth + 1) bs)
  | otherwise {scope : Scope} {loops depth : Nat} (p : Nat) {bs : List Branch} (body : List Node) :
      depth < Node.renderLimit → Node.renderBranches g scope loops (depth + 1) bs = .ok none →
      Next g (node scope loops depth (.conditional p bs (some body)))
        (nodes scope loops (depth + 1) body)
  | collection {scope : Scope} {loops depth : Nat} (p : Nat) (item : String) (e : Expr)
      (body : List Node) :
      depth < Node.renderLimit →
      Next g (node scope loops depth (.loop p item e body)) (expression scope ⟨loops, []⟩ e)
  | iteration {scope : Scope} {loops depth : Nat} (p : Nat) (item : String) {e : Expr}
      (body : List Node)
      {before after : List Value} {x : Value} {pieces : List String} :
      depth < Node.renderLimit → e.eval g scope ⟨loops, []⟩ = .ok (.list (before ++ x :: after)) →
      gather (fun y => Node.renderAll g ((item, y) :: scope) (loops + 1) (depth + 1) body) before =
        .ok pieces →
      Next g (node scope loops depth (.loop p item e body))
        (nodes ((item, x) :: scope) (loops + 1) (depth + 1) body)
  | condition {scope : Scope} {loops depth : Nat} (b : Branch) (rest : List Branch) :
      Next g (branches scope loops depth (b :: rest)) (expression scope ⟨loops, []⟩ b.condition)
  | chosen {scope : Scope} {loops depth : Nat} {b : Branch} (rest : List Branch) {v : Value} :
      b.condition.eval g scope ⟨loops, []⟩ = .ok v → v.truthy = true →
      Next g (branches scope loops depth (b :: rest)) (nodes scope loops depth b.body)
  | passed {scope : Scope} {loops depth : Nat} {b : Branch} (rest : List Branch) {v : Value} :
      b.condition.eval g scope ⟨loops, []⟩ = .ok v → v.truthy = false →
      Next g (branches scope loops depth (b :: rest)) (branches scope loops depth rest)
  | part {scope : Scope} {site : Site} {e part : Expr} {before after : List Expr}
      {vs : List Value} :
      Expr.checkDepth site e.position = .ok () → e.parts = before ++ part :: after →
      Expr.evalUntil g scope site e.decided [] before = .ok vs → e.decided vs = false →
      Next g (expression scope site e) (expression scope (site.part vs.length) part)

def Reaches (g : Globals) : Moment → Moment → Prop := Relation.ReflTransGen (Next g)

noncomputable def size : Moment → Nat
  | nodes _ _ _ ns => sizeOf ns
  | node _ _ _ n => sizeOf n
  | branches _ _ _ bs => sizeOf bs
  | expression _ _ e => sizeOf e

variable {g : Globals} {m m' : Moment} {fault : RenderFault}

theorem Next.size_lt (h : Next g m m') : m'.size < m.size := by
  cases h with
  | first | rest | passed =>
    simp only [size, List.cons.sizeOf_spec]
    omega
  | output | collection | iteration =>
    simp only [size, Node.output.sizeOf_spec, Node.loop.sizeOf_spec]
    omega
  | branches | otherwise =>
    simp only [size, Node.conditional.sizeOf_spec, Option.some.sizeOf_spec]
    omega
  | condition b rest | @chosen _ _ _ b rest _ _ _ =>
    obtain ⟨condition, body⟩ := b
    simp only [size, List.cons.sizeOf_spec, Branch.mk.sizeOf_spec, Branch.condition_mk,
      Branch.body_mk]
    omega
  | part _ split _ _ =>
    apply Expr.sizeOf_lt_of_mem_parts
    rw [split]
    exact List.mem_append_cons_self

def Fails (g : Globals) : Moment → RenderFault → Prop
  | nodes scope loops depth ns, fault => Node.renderAll g scope loops depth ns = .error fault
  | node scope loops depth n, fault => n.render g scope loops depth = .error fault
  | branches scope loops depth bs, fault =>
    Node.renderBranches g scope loops depth bs = .error fault
  | expression scope site e, fault => e.eval g scope site = .error fault

/-- A fault that comes up at this moment, not at one that it leads to. -/
inductive Raises (g : Globals) : Moment → RenderFault → Prop where
  | shown {scope : Scope} {loops depth : Nat} (p : Nat) {e : Expr} {escape : Bool} {v : Value}
      {fault : RenderFault} :
      e.eval g scope ⟨loops, []⟩ = .ok v → Node.shown g.room escape v = .error fault →
      Raises g (node scope loops depth (.output p e escape)) fault
  | conditional {scope : Scope} {loops depth : Nat} (p : Nat) (bs : List Branch)
      (otherwise : Option (List Node)) : ¬depth < Node.renderLimit →
      Raises g (node scope loops depth (.conditional p bs otherwise)) (.tooDeep Node.renderLimit p)
  | loop {scope : Scope} {loops depth : Nat} (p : Nat) (item : String) (e : Expr)
      (body : List Node) :
      ¬depth < Node.renderLimit →
      Raises g (node scope loops depth (.loop p item e body)) (.tooDeep Node.renderLimit p)
  | collection {scope : Scope} {loops depth : Nat} (p : Nat) (item : String) {e : Expr}
      (body : List Node)
      {v : Value} :
      depth < Node.renderLimit → e.eval g scope ⟨loops, []⟩ = .ok v → (∀ items, v ≠ .list items) →
      Raises g (node scope loops depth (.loop p item e body))
        (.mismatch (.kind .list) v.kind.text (some (.loopOver item)))
  | foreign {scope : Scope} {loops depth : Nat} (kind : String) :
      Raises g (node scope loops depth (.foreign kind)) (.unknownStatement kind)
  | depth {scope : Scope} {site : Site} {e : Expr} {fault : RenderFault} :
      Expr.checkDepth site e.position = .error fault → Raises g (expression scope site e) fault
  | conclude {scope : Scope} {site : Site} {e : Expr} {vs : List Value} {fault : RenderFault} :
      Expr.checkDepth site e.position = .ok () →
      Expr.evalUntil g scope site e.decided [] e.parts = .ok vs →
      e.conclude g scope site vs = .error fault → Raises g (expression scope site e) fault

/-- A moment fails with what it raises. -/
theorem Raises.fails (h : Raises g m fault) : Fails g m fault := by
  cases h with
  | shown p evaluated failed =>
    rw [Fails, Node.render, evaluated]
    exact failed
  | conditional p bs otherwise deep =>
    rw [Fails, Node.render, if_neg deep]
  | loop p item e body deep =>
    rw [Fails, Node.render, if_neg deep]
  | @collection _ _ _ p item e body v shallow evaluated other =>
    rw [Fails, Node.render, if_pos shallow, evaluated]
    cases v with
    | list items => exact absurd rfl (other items)
    | null | bool | int | float | string | pair | mapping | record => rfl
  | foreign kind =>
    rw [Fails, Node.render]
  | depth failed =>
    rw [Fails, Expr.eval_eq, failed]
    rfl
  | conclude shallow evaluated failed =>
    rw [Fails, Expr.eval_eq, shallow, ok_bind, evaluated, ok_bind, failed]

/-- A moment fails with the moments that come of it. -/
theorem Next.fails (h : Next g m m') (failed : Fails g m' fault) : Fails g m fault := by
  cases h with
  | first n rest =>
    rw [Fails] at failed
    rw [Fails, Node.renderAll, failed]
    rfl
  | rest rest rendered =>
    rw [Fails] at failed
    rw [Fails, Node.renderAll, rendered, ok_bind, failed]
    rfl
  | output p e escape =>
    rw [Fails] at failed
    rw [Fails, Node.render, failed]
    rfl
  | branches p bs otherwise shallow =>
    rw [Fails] at failed
    rw [Fails, Node.render, if_pos shallow, failed]
    rfl
  | otherwise p body shallow none =>
    rw [Fails] at failed
    rw [Fails, Node.render, if_pos shallow, none, ok_bind, Node.renderOtherwise]
    exact failed
  | collection p item e body shallow =>
    rw [Fails] at failed
    rw [Fails, Node.render, if_pos shallow, failed]
    rfl
  | iteration p item body shallow evaluated gathered =>
    rw [Fails] at failed
    rw [Fails, Node.render, if_pos shallow, evaluated, ok_bind]
    exact gather_eq_error_iff.2 ⟨_, _, _, _, rfl, gathered, failed⟩
  | condition b rest =>
    obtain ⟨condition, body⟩ := b
    rw [Fails, Branch.condition_mk] at failed
    rw [Fails, Node.renderBranches, failed]
    rfl
  | @chosen _ _ _ b rest v evaluated holds =>
    obtain ⟨condition, body⟩ := b
    rw [Branch.condition_mk] at evaluated
    rw [Fails, Branch.body_mk] at failed
    rw [Fails, Node.renderBranches, evaluated, ok_bind, if_pos holds, failed]
    rfl
  | @passed _ _ _ b rest v evaluated fails =>
    obtain ⟨condition, body⟩ := b
    rw [Branch.condition_mk] at evaluated
    rw [Fails] at failed
    rw [Fails, Node.renderBranches, evaluated, ok_bind, if_neg (by simp [fails]), failed]
  | part shallow split evaluated pending =>
    rw [Fails] at failed
    rw [Fails, Expr.eval_eq, shallow, ok_bind,
      Expr.evalUntil_eq_error_iff.2 ⟨_, _, _, _, split, evaluated, pending, failed⟩]
    rfl

/-- What holds of the value of every part that comes next holds of all values of an expression. -/
theorem forall_values {P : Value → Prop} {scope : Scope} {site : Site} {e : Expr} {vs : List Value}
    (shallow : Expr.checkDepth site e.position = .ok ())
    (found : Expr.evalUntil g scope site e.decided [] e.parts = .ok vs)
    (h : ∀ inner part v, Next g (expression scope site e) (expression scope inner part) →
      part.eval g scope inner = .ok v → P v) : ∀ v ∈ vs, P v := by
  refine Expr.forall_of_evalUntil (List.forall_mem_nil _) ?_ found
  intro before part after ws w split passed pending value
  exact h _ part w (.part shallow split passed pending) value

end Moment

end Stencil
