import Stencil.Expr.Eval
import Stencil.Proofs.Outcome

/-! Every expression is evaluated in the same three steps: its depth is checked, its parts are
evaluated one after another for as long as the values so far leave it undecided, and something is
done with the values. -/
namespace Stencil.Expr
open Outcome

def parts : Expr → List Expr
  | literal .. | name .. | foreign .. => []
  | list _ items => items
  | member _ target _ arguments => target :: arguments
  | index _ target _ => [target]
  | call _ _ arguments => arguments
  | unary _ _ operand | otherUnary _ _ operand => [operand]
  | binary _ _ left right | otherBinary _ _ left right => [left, right]

theorem sizeOf_lt_of_mem_parts {e e' : Expr} (h : e' ∈ e.parts) : sizeOf e' < sizeOf e := by
  cases e <;> simp only [parts, List.mem_cons, List.not_mem_nil, or_false] at h
  case list | call =>
    have inside := List.sizeOf_lt_of_mem h
    simp only [list.sizeOf_spec, call.sizeOf_spec]
    omega
  case member =>
    rw [member.sizeOf_spec]
    rcases h with rfl | h
    · omega
    · have inside := List.sizeOf_lt_of_mem h
      omega
  case index | unary | otherUnary =>
    subst h
    simp only [index.sizeOf_spec, unary.sizeOf_spec, otherUnary.sizeOf_spec]
    omega
  case binary | otherBinary =>
    simp only [binary.sizeOf_spec, otherBinary.sizeOf_spec]
    rcases h with rfl | rfl
    · omega
    · omega

def decided : Expr → List Value → Bool
  | binary _ op _ _, [x] => op == .and && !x.truthy || op == .or && x.truthy
  | _, _ => false

def conclude (g : Globals) (scope : Scope) (site : Site) :
    Expr → List Value → Except RenderFault Value
  | literal _ v, _ => .ok v
  | name _ x, _ => lookup scope x
  | list .., vs => .ok (.list vs)
  | member _ _ x _, v :: args => v.member site x args
  | index _ _ i, [v] => v.index i
  | call _ f _, args => GlobalFunction.call g f args
  | unary _ .not _, [v] => .ok (.bool (!v.truthy))
  | unary _ .negate _, [v] => signed true UnaryOperator.negate.text v
  | unary _ .plus _, [v] => signed false UnaryOperator.plus.text v
  | binary .., [x] => .ok (.bool x.truthy)
  | binary _ op _ _, [x, y] => combine g.room op x y
  | otherUnary _ op _, [v] => signed false op v
  | otherBinary _ op _ _, _ => .error (.unknownOperator op)
  | foreign _ kind, _ => .error (.unknownExpression kind)
  -- there are never fewer values, nor more
  | _, _ => .ok .null

variable {g : Globals} {scope : Scope} {site : Site}

/-- The values of parts one after another, those of `done` before them, up to where they decide. -/
def evalUntil (g : Globals) (scope : Scope) (site : Site) (stop : List Value → Bool)
    (done : List Value) :
    List Expr → Except RenderFault (List Value)
  | [] => .ok done
  | e :: rest =>
    if stop done then .ok done
    else do
      let v ← eval g scope (site.part done.length) e
      evalUntil g scope site stop (done ++ [v]) rest

theorem evalUntil_cons {stop : List Value → Bool} {done : List Value} (h : stop done = false)
    (e : Expr) (rest : List Expr) :
    evalUntil g scope site stop done (e :: rest) =
      eval g scope (site.part done.length) e >>= fun v =>
        evalUntil g scope site stop (done ++ [v]) rest := by
  rw [evalUntil, h]
  rfl

theorem evalUntil_eq_evalAll {stop : List Value → Bool} (h : ∀ vs, stop vs = false)
    (done : List Value) (es : List Expr) :
    evalUntil g scope site stop done es =
      (evalAll g scope site done.length es).map (done ++ ·) := by
  induction es generalizing done with
  | nil => simp [evalUntil, evalAll]
  | cons e rest ih =>
    rw [evalUntil_cons (h done), evalAll]
    cases eval g scope (site.part done.length) e with
    | error fault => rfl
    | ok v =>
      rw [ok_bind, ok_bind, ih, List.length_append, List.length_singleton]
      cases evalAll g scope site (done.length + 1) rest <;> simp

theorem evalUntil_of_stop {stop : List Value → Bool} {done : List Value} (h : stop done = true)
    (es : List Expr) : evalUntil g scope site stop done es = .ok done := by
  cases es with
  | nil => rfl
  | cons e rest => rw [evalUntil, if_pos h]

/-- A row of parts fails with the first of them that fails. -/
theorem evalUntil_eq_error_iff {stop : List Value → Bool} {done : List Value} {es : List Expr}
    {fault : RenderFault} :
    evalUntil g scope site stop done es = .error fault ↔
      ∃ before e after vs, es = before ++ e :: after ∧
        evalUntil g scope site stop done before = .ok vs ∧
        stop vs = false ∧ eval g scope (site.part vs.length) e = .error fault := by
  induction es generalizing done with
  | nil => simp [evalUntil]
  | cons e rest ih =>
    by_cases enough : stop done = true
    · rw [evalUntil_of_stop enough]
      refine ⟨nofun, fun given => ?_⟩
      obtain ⟨before, _, _, vs, _, evaluated, undecided, _⟩ := given
      rw [evalUntil_of_stop enough] at evaluated
      cases evaluated
      rw [enough] at undecided
      cases undecided
    · have undecided : stop done = false := by simpa using enough
      rw [evalUntil_cons undecided]
      constructor
      · intro failed
        cases first : eval g scope (site.part done.length) e with
        | error fault' =>
          rw [first] at failed
          cases failed
          exact ⟨[], e, rest, done, rfl, rfl, undecided, first⟩
        | ok v =>
          rw [first, ok_bind] at failed
          obtain ⟨before, e', after, vs, rfl, evaluated, pending, fails⟩ := ih.1 failed
          refine ⟨e :: before, e', after, vs, rfl, ?_, pending, fails⟩
          rw [evalUntil_cons undecided, first]
          exact evaluated
      · intro given
        obtain ⟨before, e', after, vs, split, evaluated, pending, fails⟩ := given
        cases before with
        | nil =>
          cases split
          cases evaluated
          rw [fails]
          rfl
        | cons b before =>
          cases split
          rw [evalUntil_cons undecided] at evaluated
          obtain ⟨v, first, evaluated⟩ := bind_eq_ok_iff.1 evaluated
          rw [first]
          exact ih.2 ⟨before, e', after, vs, rfl, evaluated, pending, fails⟩

/-- What holds of the value of every part that is evaluated holds of all values of a row. -/
theorem forall_of_evalUntil {P : Value → Prop} {stop : List Value → Bool} {done vs : List Value}
    {es : List Expr} (hdone : ∀ v ∈ done, P v)
    (h : ∀ before e after ws v, es = before ++ e :: after →
      evalUntil g scope site stop done before = .ok ws →
      stop ws = false → eval g scope (site.part ws.length) e = .ok v → P v)
    (evaluated : evalUntil g scope site stop done es = .ok vs) : ∀ v ∈ vs, P v := by
  induction es generalizing done with
  | nil =>
    cases evaluated
    exact hdone
  | cons e rest ih =>
    by_cases enough : stop done = true
    · rw [evalUntil_of_stop enough] at evaluated
      cases evaluated
      exact hdone
    · have undecided : stop done = false := by simpa using enough
      rw [evalUntil_cons undecided] at evaluated
      obtain ⟨v, first, evaluated⟩ := bind_eq_ok_iff.1 evaluated
      have hv : P v := h [] e rest done v rfl rfl undecided first
      refine ih ?_ ?_ evaluated
      · exact List.forall_mem_append.2 ⟨hdone, by simpa using hv⟩
      · intro before e' after ws w split passed pending found
        refine h (e :: before) e' after ws w (by rw [split]; rfl) ?_ pending found
        rw [evalUntil_cons undecided, first]
        exact passed

theorem evalUntil_singleton {stop : List Value → Bool} (h : stop [] = false) (e : Expr) :
    evalUntil g scope site stop [] [e] = (eval g scope (site.part 0) e).map fun v => [v] := by
  rw [evalUntil_cons h]
  cases eval g scope (site.part 0) e <;> rfl

/-- Of two parts the second one may be left out. -/
theorem evalUntil_pair {stop : List Value → Bool} (h : stop [] = false) (left right : Expr) :
    evalUntil g scope site stop [] [left, right] =
      eval g scope (site.part 0) left >>= fun x =>
        if stop [x] = true then .ok [x] else (eval g scope (site.part 1) right).map fun y =>
          [x, y] := by
  rw [evalUntil_cons h]
  rfl

theorem evalUntil_pair_eq_ok_iff {stop : List Value → Bool} (h : stop [] = false)
    {left right : Expr} {x y : Value} :
    evalUntil g scope site stop [] [left, right] = .ok [x, y] ↔
      eval g scope (site.part 0) left = .ok x ∧ stop [x] = false ∧
        eval g scope (site.part 1) right = .ok y := by
  rw [evalUntil_pair h, bind_eq_ok_iff]
  constructor
  · intro given
    obtain ⟨x', first, others⟩ := given
    by_cases enough : stop [x'] = true
    · rw [if_pos enough] at others
      cases others
    · rw [if_neg enough] at others
      obtain ⟨y', second, both⟩ := map_eq_ok_iff.1 others
      cases both
      exact ⟨first, by simpa using enough, second⟩
  · intro given
    obtain ⟨first, pending, second⟩ := given
    refine ⟨x, first, ?_⟩
    rw [if_neg (by simp [pending]), second]
    rfl

/-- Evaluation in three steps. -/
theorem eval_eq (e : Expr) :
    e.eval g scope site =
      checkDepth site e.position >>= fun _ =>
        evalUntil g scope site e.decided [] e.parts >>= fun vs => e.conclude g scope site vs := by
  -- nothing is left out where values never decide
  have all (stop : List Value → Bool) (h : ∀ vs, stop vs = false) (es : List Expr) :
      evalUntil g scope site stop [] es = evalAll g scope site 0 es := by
    rw [evalUntil_eq_evalAll h]
    cases evalAll g scope site 0 es <;> rfl
  cases e with
  | literal p v => rfl
  | name p x => rfl
  | foreign p kind => rfl
  | list p items =>
    rw [all (list p items).decided fun _ => rfl]
    rfl
  | call p f arguments =>
    rw [all (call p f arguments).decided fun _ => rfl]
    rfl
  | member p target x arguments =>
    rw [eval, all (member p target x arguments).decided fun _ => rfl, parts, evalAll, position]
    cases eval g scope (site.part 0) target with
    | error fault => rfl
    | ok v =>
      simp only [ok_bind]
      cases evalAll g scope site 1 arguments <;> rfl
  | index p target i =>
    rw [eval, parts, evalUntil_singleton rfl, position]
    cases eval g scope (site.part 0) target <;> rfl
  | unary p op operand =>
    rw [eval, parts, evalUntil_singleton rfl, position]
    cases eval g scope (site.part 0) operand with
    | error fault => rfl
    | ok v => cases op <;> rfl
  | binary p op left right =>
    rw [eval, parts, evalUntil_pair rfl, position]
    cases eval g scope (site.part 0) left with
    | error fault => rfl
    | ok x =>
      rw [ok_bind, ok_bind]
      have enough : (binary p op left right).decided [x] = true ↔
          (op = .and ∧ x.truthy = false) ∨ (op = .or ∧ x.truthy = true) := by
        simp [decided]
      by_cases conjunction : op = .and ∧ x.truthy = false
      · rw [if_pos conjunction, if_pos (enough.2 (.inl conjunction)), ok_bind, conclude,
          conjunction.2]
        rfl
      · by_cases disjunction : op = .or ∧ x.truthy = true
        · rw [if_neg conjunction, if_pos disjunction, if_pos (enough.2 (.inr disjunction)), ok_bind,
            conclude, disjunction.2]
          rfl
        · rw [if_neg conjunction, if_neg disjunction,
            if_neg fun stop => (enough.1 stop).elim conjunction disjunction]
          cases eval g scope (site.part 1) right <;> rfl
  | otherUnary p op operand =>
    rw [eval, parts, evalUntil_singleton rfl, position]
    cases eval g scope (site.part 0) operand <;> rfl
  | otherBinary p op left right =>
    rw [eval, parts, evalUntil_pair rfl, position]
    cases eval g scope (site.part 0) left with
    | error fault => rfl
    | ok x =>
      rw [ok_bind, ok_bind, if_neg (by simp [decided])]
      cases eval g scope (site.part 1) right <;> rfl

section Alone
variable {left right : Expr} {x y : Value}

theorem checkDepth_eq_ok (h : site.depth ≤ evalLimit) (position : Nat) :
    checkDepth site position = .ok () := by
  unfold checkDepth
  rw [if_neg (by omega)]

@[simp] theorem depth_part (site : Site) (n : Nat) : (site.part n).depth = site.depth + 1 := rfl

/-- Where a part is evaluated, the whole is not too deep. -/
theorem checkDepth_of_part {e : Expr} {i : Nat} (h : e.eval g scope (site.part i) = .ok x)
    (position : Nat) :
    checkDepth site position = .ok () := by
  rw [eval_eq] at h
  obtain ⟨_, inner, -⟩ := bind_eq_ok_iff.1 h
  unfold checkDepth at inner
  split at inner
  · cases inner
  · rename_i within
    rw [depth_part] at within
    exact checkDepth_eq_ok (by omega) position

theorem eval_unary (first : left.eval g scope (site.part 0) = .ok x) (p : Nat)
    (op : UnaryOperator) :
    (unary p op left).eval g scope site = (unary p op left).conclude g scope site [x] := by
  rw [eval_eq, parts, evalUntil_singleton rfl, first, checkDepth_of_part first]
  rfl

theorem eval_binary {op : Operator} (first : left.eval g scope (site.part 0) = .ok x)
    (second : right.eval g scope (site.part 1) = .ok y) (conjunction : op ≠ .and)
    (disjunction : op ≠ .or) (p : Nat) :
    (binary p op left right).eval g scope site = combine g.room op x y := by
  have undecided : (binary p op left right).decided [x] = false := by
    simp [decided, conjunction, disjunction]
  have both : evalUntil g scope site (binary p op left right).decided [] [left, right] =
      .ok [x, y] :=
    (evalUntil_pair_eq_ok_iff rfl).2 ⟨first, undecided, second⟩
  rw [eval_eq, parts, both, checkDepth_of_part first]
  rfl

theorem eval_member (first : left.eval g scope (site.part 0) = .ok x) (p : Nat) (name : String) :
    (member p left name []).eval g scope site = x.member site name [] := by
  rw [eval_eq, parts, evalUntil_singleton rfl, first, checkDepth_of_part first]
  rfl

end Alone

end Stencil.Expr
