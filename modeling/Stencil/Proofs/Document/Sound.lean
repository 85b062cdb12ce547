import Mathlib
import Stencil.Proofs.Document.Depth
import Stencil.Proofs.Document.Moment
import Stencil.Proofs.Value.Called

/-! What evaluation and rendering can end in. At no moment is there a value that is not sound, and
so a template that compiles, with data that holds no record, is rendered or ends in a fault of
rendering; exceptions are the remainder of an infinite number and a value that the stack has no room
for. -/
namespace Stencil
open Outcome

namespace Expr
open Value
variable {R : Record → Prop} {F : RenderFault → Prop} {g : Globals} {scope : Scope} {site : Site}

theorem Literal.sound {v : Value} (h : Literal v) : Sound R v := by
  cases h with
  | null => exact .null
  | bool b => exact .bool b
  | int n fits => exact .int fits
  | float x => exact .float x
  | string s => exact .string s

theorem Parsed.part {e part : Expr} (h : e.Parsed) (hp : part ∈ e.parts) : part.Parsed := by
  cases h with
  | literal | name => cases hp
  | list p items => exact items _ hp
  | call p f arguments => exact arguments _ hp
  | member p x target arguments =>
    rcases List.mem_cons.1 hp with rfl | hp
    · exact target
    · exact arguments _ hp
  | index p i target =>
    obtain rfl := List.mem_singleton.1 hp
    exact target
  | unary p op operand =>
    obtain rfl := List.mem_singleton.1 hp
    exact operand
  | binary p op left right =>
    rcases List.mem_cons.1 hp with rfl | hp
    · exact left
    · obtain rfl := List.mem_singleton.1 hp
      exact right

/-- The last step of an evaluation, from sound values to a sound value. -/
theorem conclude_meets (readable : Record.Readable R F) (hs : scope.Sound R) {e : Expr}
    (he : e.Parsed) {vs : List Value} (hv : ∀ v ∈ vs, Sound R v) (counted : ∀ v ∈ vs, v.Countable) :
    Meets (Sound R)
      (fun fault => F fault ∨ ∃ p op left right x y,
        e = .binary p op left right ∧ vs = [x, y] ∧ Unreported g.room op x y fault)
      (e.conclude g scope site vs) := by
  have told {x : Except RenderFault Value} (hx : Meets (Sound R) F x) :
      Meets (Sound R)
        (fun fault => F fault ∨ ∃ p op left right x y,
          e = .binary p op left right ∧ vs = [x, y] ∧ Unreported g.room op x y fault) x :=
    hx.imp_error fun _ => .inl
  have reported {x : Except RenderFault Value} (hx : Meets (Sound R) RenderFault.Reported x) :
      Meets (Sound R) F x := hx.imp_error readable.reported
  cases he with
  | literal p written => exact written.sound
  | name p x => exact told (reported (lookup_meets hs x))
  | list p items => exact Sound.list hv
  | call p f arguments => exact told (reported (GlobalFunction.call_meets g f hv))
  | member p x target arguments =>
    match vs with
    | [] => exact Sound.null
    | v :: args =>
      exact told (member_meets readable site (hv v (by simp)) (counted v (by simp)) x args)
  | index p i target =>
    match vs with
    | [v] => exact told (reported (index_meets (hv v (by simp)) i))
    | [] | _ :: _ :: _ => exact Sound.null
  | unary p op operand =>
    match vs with
    | [v] =>
      have good : Sound R v := hv v (by simp)
      cases op with
      | not => exact Sound.bool _
      | negate => exact told (reported (signed_meets true _ good))
      | plus => exact told (reported (signed_meets false _ good))
    | [] | _ :: _ :: _ => cases op <;> exact Sound.null
  | @binary p op left right =>
    match vs with
    | [x] => exact Sound.bool _
    | [x, y] =>
      have met : Meets (Sound R) _ (combine g.room op x y) :=
        combine_meets g.room op (hv x (by simp)) (hv y (by simp))
      refine met.imp_error fun fault h => ?_
      rcases h with known | unreported
      · exact .inl (readable.reported fault known)
      · exact .inr ⟨p, op, left, right, x, y, rfl, rfl, unreported⟩
    | [] | _ :: _ :: _ :: _ => exact Sound.null

end Expr

namespace Moment
open Value
variable {R : Record → Prop} {F : RenderFault → Prop} {g : Globals} {m m' : Moment}
    {fault : RenderFault}

/-- From here on no value outgrows memory. -/
def Counted (g : Globals) (m : Moment) : Prop :=
  ∀ scope site e v, Reaches g m (expression scope site e) → e.eval g scope site = .ok v →
    v.Countable

theorem Counted.next (h : m.Counted g) (next : Next g m m') : m'.Counted g :=
  fun scope site e v reached => h scope site e v (.head next reached)

theorem Counted.of_next (own : ∀ scope site e v, m = expression scope site e →
    e.eval g scope site = .ok v →
    v.Countable) (later : ∀ m', Next g m m' → m'.Counted g) : m.Counted g := by
  intro scope site e v reached evaluated
  rcases Relation.ReflTransGen.cases_head reached with rfl | ⟨m', next, reached⟩
  · exact own scope site e v rfl evaluated
  · exact later m' next scope site e v reached evaluated

theorem Counted.of_parts {scope : Scope} {site : Site} {e : Expr}
    (own : ∀ v, e.eval g scope site = .ok v → v.Countable)
    (later : ∀ part ∈ e.parts, ∀ inner, (expression scope inner part).Counted g) :
    (expression scope site e).Counted g := by
  refine .of_next ?_ fun m' next => ?_
  · intro scope' site' e' v same evaluated
    cases same
    exact own v evaluated
  · cases next with
    | part _ split _ _ => exact later _ (by simp [split]) _

def Sound (R : Record → Prop) : Moment → Prop
  | nodes scope _ depth ns => scope.Sound R ∧ ∀ n ∈ ns, n.Parsed depth
  | node scope _ depth n => scope.Sound R ∧ n.Parsed depth
  | branches scope _ depth bs =>
    scope.Sound R ∧ ∀ b ∈ bs, b.condition.Parsed ∧ ∀ n ∈ b.body, n.Parsed depth
  | expression scope _ e => scope.Sound R ∧ e.Parsed

/-- Evaluation keeps to sound values. The induction is on the expression: its parts have sound
values. -/
theorem eval_sound (readable : Record.Readable R F) {scope : Scope} {site : Site} {e : Expr}
    {v : Value} (sound : (expression scope site e).Sound R)
    (counted : (expression scope site e).Counted g) (evaluated : e.eval g scope site = .ok v) :
    Value.Sound R v := by
  obtain ⟨hs, he⟩ := sound
  induction hn : sizeOf e using Nat.strongRecOn generalizing e site v with
  | ind n ih =>
    subst hn
    rw [Expr.eval_eq] at evaluated
    obtain ⟨_, shallow, evaluated⟩ := bind_eq_ok_iff.1 evaluated
    obtain ⟨vs, found, concluded⟩ := bind_eq_ok_iff.1 evaluated
    have good : ∀ v ∈ vs, Value.Sound R v ∧ v.Countable := by
      refine forall_values shallow found ?_
      intro inner part w next value
      have parsed : part.Parsed := by
        cases next with
        | part _ split _ _ => exact he.part (by simp [split])
      exact ⟨ih (sizeOf part) next.size_lt (counted.next next) value parsed rfl,
        counted _ _ _ _ (.single next) value⟩
    have result : Meets (Value.Sound R) _ (e.conclude g scope site vs) :=
      Expr.conclude_meets readable hs he (fun v hv => (good v hv).1) fun v hv => (good v hv).2
    rw [concluded] at result
    exact result

/-- One step keeps to sound values. -/
theorem Next.sound (readable : Record.Readable R F) (next : Next g m m') (sound : m.Sound R)
    (counted : m.Counted g) : m'.Sound R := by
  cases next with
  | first n rest => exact ⟨sound.1, sound.2 n List.mem_cons_self⟩
  | rest rest _ => exact ⟨sound.1, (List.forall_mem_cons.1 sound.2).2⟩
  | output p e escape =>
    obtain ⟨hs, parsed⟩ := sound
    cases parsed with
    | output _ _ _ he => exact ⟨hs, he⟩
  | branches p bs otherwise _ =>
    obtain ⟨hs, parsed⟩ := sound
    cases parsed with
    | conditional _ _ _ conditions bodies _ =>
      exact ⟨hs, fun b hb => ⟨conditions b hb, bodies b hb⟩⟩
  | otherwise p body _ _ =>
    obtain ⟨hs, parsed⟩ := sound
    cases parsed with
    | conditional _ _ _ _ _ others => exact ⟨hs, others body rfl⟩
  | collection p item e body _ =>
    obtain ⟨hs, parsed⟩ := sound
    cases parsed with
    | loop _ _ _ he _ => exact ⟨hs, he⟩
  | @iteration scope loops depth p item e body before after x pieces shallow evaluated _ =>
    obtain ⟨hs, parsed⟩ := sound
    cases parsed with
    | loop _ _ _ he nodes =>
      have next :
          Next g (node scope loops depth (.loop p item e body)) (expression scope ⟨loops, []⟩ e) :=
        .collection p item e body shallow
      have items := sound_list_iff.1 (eval_sound readable ⟨hs, he⟩ (counted.next next) evaluated)
      exact ⟨List.forall_mem_cons.2 ⟨items x (by simp), hs⟩, nodes⟩
  | condition b rest => exact ⟨sound.1, (sound.2 b List.mem_cons_self).1⟩
  | @chosen _ _ _ b rest _ _ _ => exact ⟨sound.1, (sound.2 b List.mem_cons_self).2⟩
  | passed rest _ _ => exact ⟨sound.1, (List.forall_mem_cons.1 sound.2).2⟩
  | part _ split _ _ => exact ⟨sound.1, sound.2.part (by simp [split])⟩

/-- And so does a whole run. -/
theorem Reaches.sound (readable : Record.Readable R F) (reached : Reaches g m m')
    (sound : m.Sound R) (counted : m.Counted g) : m'.Sound R ∧ m'.Counted g := by
  induction reached with
  | refl => exact ⟨sound, counted⟩
  | tail _ next ih => exact ⟨next.sound readable ih.1 ih.2, ih.2.next next⟩

end Moment

namespace Document
variable {g : Globals} {d : Document} {scope : Scope}

def Contains (d : Document) (e : Expr) : Prop :=
  ∃ top ∈ d.expressions, Relation.ReflTransGen (fun whole part => part ∈ whole.parts) top e

theorem Parsed.expression (h : d.Parsed) {e : Expr} (he : d.Contains e) : e.Parsed := by
  obtain ⟨top, listed, inside⟩ := he
  induction inside with
  | refl => exact Node.forall_nodesExpressions (fun n hn => (h n hn).expressions_parsed) top listed
  | tail _ part ih => exact ih.part part

def start (d : Document) (scope : Scope) : Moment := .nodes scope 0 0 d.nodes

/-- The values of templates are closed under evaluation: where every name stands for a well-formed
value, an expression that has a value has a well-formed one, and so have the fields of records.
Values that no memory holds are left aside. -/
theorem eval_wellFormed {source : String} (h : parse source = .ok d) {e : Expr} (he : d.Contains e)
    (hs : scope.Sound fun _ => True) (site : Site)
    (counted : (Moment.expression scope site e).Counted g) :
    (∀ v, e.eval g scope site = .ok v → v.WellFormed) ∧
      ∀ (r : Record) (site : Site) (name : String) (v : Value),
        r.field? site name = .ok (some v) → v.WellFormed := by
  constructor
  · intro v evaluated
    have parsed : e.Parsed := (parse_parsed h).expression he
    exact Moment.eval_sound Record.readable_all ⟨hs, parsed⟩ counted evaluated
  · intro r site name v found
    have shown := Record.field?_meets site r name
    rw [found] at shown
    exact shown v rfl

/-- The positions of a list that the host brings. -/
theorem eval_wellFormed_enumerate :
    ∃ (g : Globals) (d : Document) (e : Expr) (scope : Scope) (v : Value),
      parse "<%= xs.enumerate %>" = .ok d ∧ d.Contains e ∧
      Context.build none [("xs", .list [.int 5, .null])] = .ok scope ∧ e.eval g scope .top = .ok v ∧
      v.WellFormed := by
  let g : Globals := ⟨CipherKey.derived [], ⟨0, []⟩, "turbo.js", 900⟩
  have h : parse "<%= xs.enumerate %>" =
      .ok ⟨[.output 0 (.member 7 (.name 4 "xs") "enumerate" []) true]⟩ := by cbv
  have built : Context.build none [("xs", .list [.int 5, .null])] =
      .ok [("xs", .list [.int 5, .null])] := by cbv
  have hs := Context.build_meets none [("xs", .list [.int 5, .null])]
  rw [built] at hs
  have evaluated :
      (Expr.member 7 (.name 4 "xs") "enumerate" []).eval g [("xs", .list [.int 5, .null])] .top =
      .ok (.list [.pair (.int 0) (.int 5), .pair (.int 1) .null]) := by cbv
  refine ⟨g, _, _, _, _, h, ⟨_, List.mem_singleton_self _, .refl⟩, built, evaluated, ?_⟩
  refine (eval_wellFormed h ⟨_, List.mem_singleton_self _, .refl⟩ hs .top ?_).1 _ evaluated
  refine .of_parts (fun v found => ?_) fun part hp inner => ?_
  · rw [evaluated] at found
    cases found
    decide
  · obtain rfl := List.mem_singleton.1 hp
    refine .of_parts (fun v found => ?_) fun _ hp => absurd hp List.not_mem_nil
    obtain ⟨_, _, found⟩ := bind_eq_ok_iff.1 found
    cases found
    decide

end Document
end Stencil
