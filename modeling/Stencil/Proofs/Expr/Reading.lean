import Mathlib
import Stencil.Proofs.Expr.Phrase
import Stencil.Proofs.Number.Numeral

/-! The parser reads a phrase back. Each lemma says what one reader makes of the words of a phrase
with other tokens behind them: the expression, or the one fault of depth if a limit is passed. -/
namespace Stencil.Phrase
open Stencil.Expr Outcome
open Token (bare)

def deep : ParseFault := .at (.tooDeep depthLimit) .start

def limited {α : Type} (c : Prop) [Decidable c] (r : Except ParseFault α) : Except ParseFault α :=
  if c then r else .error deep

section Limited
variable {α β : Type} {c c' : Prop} [Decidable c] [Decidable c']

theorem limited_true {r : Except ParseFault α} (h : c) : limited c r = r := if_pos h

theorem limited_false {r : Except ParseFault α} (h : ¬ c) : limited c r = .error deep := if_neg h

theorem limited_congr {r : Except ParseFault α} (h : c ↔ c') : limited c r = limited c' r := by
  unfold limited
  split <;> split <;> tauto

@[simp] theorem limited_bind (r : Except ParseFault α) (f : α → Except ParseFault β) :
    limited c r >>= f = limited c (r >>= f) := by
  unfold limited
  split <;> rfl

/-- One limit after another is both of them. -/
@[simp] theorem limited_limited (r : Except ParseFault α) :
    limited c (limited c' r) = limited (c ∧ c') r := by
  unfold limited
  split <;> split <;> simp_all

end Limited

@[simp] theorem grow_bare (kind : Token.Kind) (text : String) (e : Expr) :
    grow (bare kind text) e = limited (e.height ≤ depthLimit) (.ok e) := rfl

abbrev Fits (d : Nat) (b : Bool) (p : Phrase) : Prop :=
  p.need + b.toNat ≤ d ∧ p.expr.height ≤ depthLimit

abbrev AllFit (d : Nat) (ps : List Phrase) : Prop := needs ps ≤ d ∧ heights (exprs ps) ≤ depthLimit

/-- What stands behind an expression does not continue it, if its operators bind at this level or
tighter. -/
def Idle (level : Nat) (rest : List Token) : Prop :=
  ∀ t ∈ rest.head?, t.kind ≠ .dot ∧ t.kind ≠ .leftParen ∧ ∀ op, t.kind = .operator op →
    op.level < level

theorem idle_nil (level : Nat) : Idle level [] := nofun

theorem Idle.mono {level level' : Nat} {rest : List Token} (h : Idle level rest)
    (hl : level ≤ level') :
    Idle level' rest := by
  intro t ht
  obtain ⟨dot, paren, loose⟩ := h t ht
  exact ⟨dot, paren, fun op hop => (loose op hop).trans_le hl⟩

theorem idle_bare {level : Nat} {kind : Token.Kind} {text : String} {rest : List Token}
    (h : kind ≠ .dot ∧ kind ≠ .leftParen ∧ ∀ op, kind = .operator op → op.level < level) :
    Idle level (bare kind text :: rest) := by
  intro t ht
  cases ht
  exact h

theorem Idle.no_dot {level : Nat} {rest : List Token} (h : Idle level rest) :
    startsWith .dot rest = false := by
  cases rest with
  | nil => rfl
  | cons t rest => exact beq_false_of_ne (h t rfl).1

theorem Idle.no_paren {level : Nat} {rest : List Token} (h : Idle level rest) :
    startsWith .leftParen rest = false := by
  cases rest with
  | nil => rfl
  | cons t rest => exact beq_false_of_ne (h t rfl).2.1

theorem chain_idle {level : Nat} {rest : List Token} (h : Idle level rest) (operand : ReadsExpr)
    (fuel : Nat) (e : Expr) :
    chain level operand fuel e rest = .ok (e, rest) := by
  cases fuel with
  | zero => rfl
  | succ fuel =>
    cases rest with
    | nil => rfl
    | cons t rest =>
      rw [chain]
      split
      · rename_i op hop
        rw [if_neg (Nat.ne_of_lt ((h t rfl).2.2 op hop))]
      · rfl

theorem chain_operator {level : Nat} {op : Operator} (h : op.level = level) (operand : ReadsExpr)
    (fuel : Nat) (e : Expr)
    (text : String) (rest : List Token) :
    chain level operand (fuel + 1) e (bare (.operator op) text :: rest) = (do
      let (right, rest') ← operand rest
      let node ← grow (bare (.operator op) text) (.binary 0 op e right)
      chain level operand fuel node rest') := by
  simp only [chain, Token.bare_kind, if_pos h]
  rfl

def Opens (unsigned : Bool) (ws : List Token) : Prop :=
  ∃ kind text rest, ws = bare kind text :: rest ∧ kind ≠ .rightParen ∧ kind ≠ .rightBracket ∧
    (unsigned = true → unaryOperator? kind = none)

theorem Opens.append {unsigned : Bool} {ws : List Token} (h : Opens unsigned ws)
    (more : List Token) :
    Opens unsigned (ws ++ more) := by
  obtain ⟨kind, text, rest, rfl, first⟩ := h
  exact ⟨kind, text, rest ++ more, rfl, first⟩

theorem Opens.enclose {unsigned unsigned' b : Bool} {ws : List Token} (h : Opens unsigned' ws)
    (hb : b = false → unsigned = true → unsigned' = true) : Opens unsigned (enclose b ws) := by
  cases b with
  | true => exact ⟨.leftParen, _, _, rfl, nofun, nofun, fun _ => rfl⟩
  | false =>
    obtain ⟨kind, text, rest, rfl, paren, bracket, first⟩ := h
    exact ⟨kind, text, rest, rfl, paren, bracket, fun hu => first (hb rfl hu)⟩

theorem opens_words (p : Phrase) : Opens p.isTarget p.words := by
  cases p with
  | integer | float | string | bool | null | name | list | call =>
    exact ⟨_, _, _, rfl, nofun, nofun, fun _ => rfl⟩
  | member target =>
    rw [words]
    refine ((opens_words target).enclose fun hb _ => ?_).append _
    simpa [encloseTarget] using hb
  | index target =>
    rw [words]
    refine ((opens_words target).enclose fun hb _ => ?_).append _
    simp only [encloseIndexed, Bool.or_eq_false_iff, Bool.not_eq_false'] at hb
    exact hb.1
  | unary op =>
    exact ⟨signKind op, _, _, by rw [words], by cases op <;> nofun, by cases op <;> nofun, nofun⟩
  | binary op left right =>
    rw [words]
    exact ((opens_words left).enclose fun _ h => absurd h (by simp [isTarget])).append _

/-- Reading at depth `d` with the `n` tightest levels: a phrase that binds tightly enough, in
parentheses or not, is read whole, within the limits. -/
def Reads (size d n : Nat) : Prop :=
  ∀ (b : Bool) (p : Phrase) (rest : List Token), (b = false → Operator.levels - n ≤ p.level) →
    Idle (Operator.levels - n) rest → (enclose b p.words ++ rest).length ≤ size →
    tier size (unaryOf size .start d) n (enclose b p.words ++ rest) =
      limited (Fits d b p) (.ok (p.expr, rest))

section Levels
variable {size d n : Nat}

def gather (size d n fuel : Nat) (left : Expr) (tokens : List Token) :
  Except ParseFault (Expr × List Token) :=
  chain (Operator.levels - (n + 1)) (tier size (unaryOf size .start d) n) fuel left tokens

/-- The left edge of a phrase is read first, and the loop takes the operators on it one by one. -/
theorem edge_reads (h : Reads size d n) (hn : n < Operator.levels) (b : Bool) (p : Phrase)
    (rest : List Token) {fuel : Nat}
    (hp : b = false → Operator.levels - (n + 1) ≤ p.level) (idle : Idle (Operator.levels - n) rest)
    (hsize : (enclose b p.words ++ rest).length ≤ size)
    (hfuel : (enclose b p.words ++ rest).length ≤ fuel) :
    ∃ fuel', rest.length ≤ fuel' ∧
      (do
        let (left, more) ← tier size (unaryOf size .start d) n (enclose b p.words ++ rest)
        gather size d n fuel left more) =
          limited (Fits d b p) (gather size d n fuel' p.expr rest) := by
  by_cases tight : b = false → Operator.levels - n ≤ p.level
  · rw [List.length_append] at hfuel
    refine ⟨fuel, by omega, ?_⟩
    rw [h b p rest tight idle hsize, limited_bind]
    rfl
  -- now the phrase is an operation of the very level of the loop
  cases p with
  | integer | float | string | bool | null | name | list | call | member | index | unary =>
    exact absurd (fun _ => Nat.sub_le ..) tight
  | binary op left right =>
    obtain ⟨rfl, loose⟩ : b = false ∧ ¬ Operator.levels - n ≤ op.level := by
      simpa [level] using tight
    have hlevel : op.level = Operator.levels - (n + 1) := by
      have := hp rfl
      simp only [level] at this
      omega
    have hwords : enclose false (binary op left right).words ++ rest =
      enclose (encloseLeft op left) left.words ++
        (bare (.operator op) op.text :: (enclose (encloseRight op right) right.words ++ rest)) := by
      simp [enclose, words]
    rw [hwords] at hsize hfuel ⊢
    obtain ⟨fuel', enough, hedge⟩ := edge_reads h hn (encloseLeft op left) left
      (bare (.operator op) op.text :: (enclose (encloseRight op right) right.words ++ rest))
      (by simp only [encloseLeft, decide_eq_false_iff_not]; omega)
      (idle_bare ⟨by simp, by simp, fun op' hop => by cases hop; omega⟩) hsize hfuel
    have hright := h (encloseRight op right) right rest
      (by simp only [encloseRight, decide_eq_false_iff_not]; omega) idle
      (by simp only [List.length_append, List.length_cons] at hsize ⊢; omega)
    obtain ⟨k, rfl⟩ : ∃ k, fuel' = k + 1 :=
      ⟨fuel' - 1, by simp only [List.length_cons] at enough; omega⟩
    refine ⟨k, by simp only [List.length_append, List.length_cons] at enough; omega, ?_⟩
    rw [hedge, gather, chain_operator hlevel, hright]
    simp only [limited_bind, ok_bind, grow_bare, limited_limited]
    refine limited_congr ?_
    simp only [Fits, need, expr, height, Bool.toNat_false]
    omega

theorem reads_succ (h : Reads size d n) (hn : n < Operator.levels) : Reads size d (n + 1) := by
  intro b p rest hp idle hsize
  obtain ⟨fuel', -, hedge⟩ := edge_reads h hn b p rest hp (idle.mono (by omega)) hsize hsize
  rw [gather, chain_idle idle] at hedge
  exact hedge

theorem reads_levels (h : Reads size d 0) (hn : n ≤ Operator.levels) : Reads size d n := by
  induction n with
  | zero => exact h
  | succ n ih => exact reads_succ (ih (Nat.le_of_succ_le hn)) hn

theorem expect_bare (kind : Token.Kind) (text : String) (rest : List Token) :
    expect .start kind (bare kind text :: rest) = .ok (bare kind text, rest) := by
  rw [expect]
  exact if_pos rfl

theorem Opens.not_closing {unsigned : Bool} {ws : List Token} (h : Opens unsigned ws)
    {closing : Token.Kind} (hc : closing = .rightParen ∨ closing = .rightBracket) :
    startsWith closing ws = false := by
  obtain ⟨kind, text, rest, rfl, paren, bracket, -⟩ := h
  refine beq_false_of_ne ?_
  rcases hc with rfl | rfl
  · exact paren
  · exact bracket

/-- Any expression in brackets is read up to what closes it or the next comma. -/
theorem item_reads (h : Reads size d Operator.levels) (p : Phrase) (rest : List Token)
    (idle : Idle 0 rest) (hsize : (p.words ++ rest).length ≤ size) :
    tier size (unaryOf size .start d) Operator.levels (p.words ++ rest) =
      limited (Fits d false p) (.ok (p.expr, rest)) :=
  h false p rest (fun _ => by simp) (idle.mono (Nat.zero_le _)) hsize

theorem idle_between {closing : Token.Kind} (hc : closing = .rightParen ∨ closing = .rightBracket)
    (text : String)
    (ps : List Phrase) (rest : List Token) :
    Idle 0 ((allWords ps).flatMap (bare .comma "," :: ·) ++ bare closing text :: rest) := by
  cases ps with
  | nil => rcases hc with rfl | rfl <;> exact idle_bare ⟨nofun, nofun, nofun⟩
  | cons p ps => exact idle_bare ⟨nofun, nofun, nofun⟩

theorem length_le_allWords (ps : List Phrase) :
    ps.length ≤ ((allWords ps).flatMap (bare .comma "," :: ·)).length := by
  induction ps with
  | nil => exact Nat.zero_le _
  | cons p ps ih =>
    simp only [allWords, List.flatMap_cons, List.length_append, List.length_cons]
    omega

theorem moreItems_reads (h : Reads size d Operator.levels) {closing : Token.Kind}
    (hc : closing = .rightParen ∨ closing = .rightBracket) (text : String) (ps : List Phrase)
    (rest : List Token)
    {fuel : Nat} (hfuel : ps.length ≤ fuel)
    (hsize : ((allWords ps).flatMap (bare .comma "," :: ·) ++ bare closing text :: rest).length ≤
      size) :
    moreItems .start (tier size (unaryOf size .start d) Operator.levels) closing fuel
        ((allWords ps).flatMap (bare .comma "," :: ·) ++ bare closing text :: rest) =
      limited (AllFit d ps) (.ok (exprs ps, rest)) := by
  have no_comma : startsWith .comma (bare closing text :: rest) = false := by
    rcases hc with rfl | rfl <;> rfl
  induction ps generalizing fuel with
  | nil =>
    have fits : AllFit d [] := ⟨Nat.zero_le _, Nat.zero_le _⟩
    rw [limited_true fits]
    cases fuel with
    | zero =>
      rw [moreItems]
      simp only [allWords, List.flatMap_nil, List.nil_append, expect_bare]
      rfl
    | succ fuel =>
      rw [moreItems]
      simp only [allWords, List.flatMap_nil, List.nil_append, no_comma, Bool.false_and,
        Bool.false_eq_true, if_false, expect_bare]
      rfl
  | cons p ps ih =>
    obtain ⟨k, rfl⟩ : ∃ k, fuel = k + 1 :=
      ⟨fuel - 1, by simp only [List.length_cons] at hfuel; omega⟩
    have hwords : (allWords (p :: ps)).flatMap (bare .comma "," :: ·) ++ bare closing text :: rest =
        bare .comma "," :: (p.words ++
          ((allWords ps).flatMap (bare .comma "," :: ·) ++ bare closing text :: rest)) := by
      simp [allWords]
    rw [hwords] at hsize ⊢
    have comma (ws : List Token) : startsWith .comma (bare .comma "," :: ws) = true := rfl
    have opens := ((opens_words p).append
      ((allWords ps).flatMap (bare .comma "," :: ·) ++ bare closing text :: rest)).not_closing hc
    simp only [List.length_cons, List.length_append] at hsize hfuel
    have hfirst := item_reads h p _ (idle_between hc text ps rest)
      (by simp only [List.length_cons, List.length_append]; omega)
    have hothers := @ih k (by omega) (by simp only [List.length_cons, List.length_append]; omega)
    rw [moreItems]
    simp only [comma, List.drop_succ_cons, List.drop_zero, opens, Bool.not_false, Bool.and_self,
      if_true, hfirst, limited_bind, ok_bind, hothers, limited_limited, pure_eq_ok]
    refine limited_congr ?_
    simp only [Fits, AllFit, needs, exprs, heights, Bool.toNat_false]
    omega

theorem items_reads (h : Reads size d Operator.levels) {closing : Token.Kind}
    (hc : closing = .rightParen ∨ closing = .rightBracket) (text : String) (ps : List Phrase)
    (rest : List Token)
    (hsize : (commaed (allWords ps) ++ bare closing text :: rest).length ≤ size) :
    items size .start (tier size (unaryOf size .start d) Operator.levels) closing
        (commaed (allWords ps) ++ bare closing text :: rest) =
          limited (AllFit d ps) (.ok (exprs ps, rest)) := by
  cases ps with
  | nil =>
    have closes : startsWith closing (bare closing text :: rest) = true := beq_self_eq_true closing
    have fits : AllFit d [] := ⟨Nat.zero_le _, Nat.zero_le _⟩
    rw [limited_true fits, items]
    simp only [allWords, commaed, List.nil_append, closes, if_true]
    rfl
  | cons p ps =>
    have hwords : commaed (allWords (p :: ps)) ++ bare closing text :: rest =
        p.words ++ ((allWords ps).flatMap (bare .comma "," :: ·) ++ bare closing text :: rest) := by
      simp [allWords, commaed]
    rw [hwords] at hsize ⊢
    have opens := ((opens_words p).append
      ((allWords ps).flatMap (bare .comma "," :: ·) ++ bare closing text :: rest)).not_closing hc
    have hfirst := item_reads h p _ (idle_between hc text ps rest) hsize
    rw [List.length_append] at hsize
    have enough : ps.length ≤ size := by
      have := length_le_allWords ps
      simp only [List.length_append] at hsize
      omega
    have hothers := moreItems_reads h hc text ps rest enough (by omega)
    rw [items]
    simp only [opens, Bool.false_eq_true, if_false, hfirst, limited_bind, ok_bind, hothers,
      limited_limited, pure_eq_ok]
    refine limited_congr ?_
    simp only [Fits, AllFit, needs, exprs, heights, Bool.toNat_false]
    omega

/-- Arguments in parentheses. -/
theorem arguments_reads (h : Reads size d Operator.levels) (ps : List Phrase) (rest : List Token)
    (hsize : (enclose true (commaed (allWords ps)) ++ rest).length ≤ size) :
    arguments? size .start (tier size (unaryOf size .start d) Operator.levels)
        (enclose true (commaed (allWords ps)) ++ rest) =
          limited (AllFit d ps) (.ok (some (exprs ps), rest)) := by
  have hwords : enclose true (commaed (allWords ps)) ++ rest =
      bare .leftParen "(" :: (commaed (allWords ps) ++ bare .rightParen ")" :: rest) := by
    simp [enclose]
  have paren (ws : List Token) : startsWith .leftParen (bare .leftParen "(" :: ws) = true := rfl
  rw [hwords] at hsize ⊢
  rw [List.length_cons] at hsize
  rw [arguments?]
  simp only [paren, if_true, List.drop_succ_cons, List.drop_zero,
    items_reads h (.inl rfl) ")" ps rest (Nat.le_of_succ_le hsize), limited_bind, ok_bind,
      pure_eq_ok]

theorem no_arguments {rest : List Token} (h : startsWith .leftParen rest = false)
    (item : ReadsExpr) :
    arguments? size .start item rest = .ok (none, rest) := by
  rw [arguments?, if_neg (by simp [h])]

theorem postfixes_member {item : ReadsExpr} {x : String} {rest more : List Token}
    {found : Option (List Expr)} {c : Prop}
    [Decidable c] (h : arguments? size .start item rest = limited c (.ok (found, more)))
    (fuel : Nat) (node : Expr) :
    postfixes size .start item (fuel + 1) node (bare .dot "." :: bare .identifier x :: rest) =
      limited (c ∧ (Expr.member 0 node x (found.getD [])).height ≤ depthLimit)
        (postfixes size .start item fuel (.member 0 node x (found.getD [])) more) := by
  rw [postfixes, if_pos (Token.bare_kind .dot ".")]
  simp only [Token.bare_kind, Token.bare_text, h, limited_bind, ok_bind, grow_bare, limited_limited]
  rfl

theorem postfixes_index {item : ReadsExpr} {n : Nat} (h : n < 10 ^ NumeralFault.digitLimit)
    (rest : List Token) (fuel : Nat)
    (node : Expr) :
    postfixes size .start item (fuel + 1) node (bare .dot "." ::
      bare .integer (toString n) :: rest) =
      limited ((Expr.index 0 node n).height ≤ depthLimit)
        (postfixes size .start item fuel (.index 0 node n) rest) := by
  rw [postfixes, if_pos (Token.bare_kind .dot ".")]
  simp only [Token.bare_kind, Token.bare_text, integerNumeral, Numeral.integer_toString h,
    limited_bind, ok_bind, grow_bare]
  rfl

theorem floatNumeral_text (l : FloatLiteral) : floatNumeral l.text = .ok l.value := by
  rw [floatNumeral, FloatLiteral.text, Numeral.float_digits l.whole_digits.2 l.fraction_digits.2]
  rfl

abbrev nested (size d : Nat) : ReadsExpr := tier size (unaryOf size .start d) Operator.levels

def stem (size d fuel : Nat) (tokens : List Token) : Except ParseFault (Expr × List Token) := do
  let (node, more) ← primary size .start (nested size d) tokens
  postfixes size .start (nested size d) fuel node more

theorem stem_of_primary {tokens rest : List Token} {e : Expr} {c : Prop} [Decidable c] {fuel : Nat}
    (h : primary size .start (nested size d) tokens = limited c (.ok (e, rest))) :
    stem size d fuel tokens = limited c (postfixes size .start (nested size d) fuel e rest) := by
  rw [stem, h, limited_bind]
  rfl

def Stems (size d : Nat) (b : Bool) (p : Phrase) : Prop :=
  ∀ (rest : List Token) (fuel : Nat), startsWith .leftParen rest = false →
    (enclose b p.words ++ rest).length ≤ size → (enclose b p.words ++ rest).length ≤ fuel →
    ∃ fuel', rest.length ≤ fuel' ∧ stem size d fuel (enclose b p.words ++ rest) =
      limited (Fits (d + 1) b p) (postfixes size .start (nested size d) fuel' p.expr rest)

theorem stems_group (h : Reads size d Operator.levels) (p : Phrase) : Stems size d true p := by
  intro rest fuel _ hsize hfuel
  have hwords : enclose true p.words ++ rest =
      bare .leftParen "(" :: (p.words ++ bare .rightParen ")" :: rest) := by
    simp [enclose]
  rw [hwords] at hsize hfuel ⊢
  simp only [List.length_cons, List.length_append] at hsize hfuel
  have hitem := item_reads h p (bare .rightParen ")" :: rest) (idle_bare ⟨nofun, nofun, nofun⟩)
    (by simp only [List.length_cons, List.length_append]; omega)
  have hprimary : primary size .start (nested size d)
      (bare .leftParen "(" :: (p.words ++ bare .rightParen ")" :: rest)) =
      limited (Fits d false p) (.ok (p.expr, rest)) := by
    rw [primary]
    simp only [Token.bare_kind, hitem, limited_bind, ok_bind, expect_bare, pure_eq_ok]
  refine ⟨fuel, by omega, ?_⟩
  rw [stem_of_primary hprimary]
  refine limited_congr ?_
  simp only [Fits, Bool.toNat_true, Bool.toNat_false]
  omega

theorem stems_of_primary {p : Phrase} (h : ∀ rest, startsWith .leftParen rest = false →
      (p.words ++ rest).length ≤ size → primary size .start (nested size d) (p.words ++ rest) =
        limited (Fits (d + 1) false p) (.ok (p.expr, rest))) : Stems size d false p := by
  intro rest fuel hrest hsize hfuel
  have enough : rest.length ≤ fuel := by
    rw [List.length_append] at hfuel
    omega
  exact ⟨fuel, enough, stem_of_primary (h rest hrest hsize)⟩

theorem stems_atom {p : Phrase} (hneed : p.need = 1) (hheight : p.expr.height = 1)
    (h : ∀ rest, startsWith .leftParen rest = false →
      primary size .start (nested size d) (p.words ++ rest) = .ok (p.expr, rest)) :
    Stems size d false p := by
  have fits : Fits (d + 1) false p := by simp [Fits, hneed, hheight, depthLimit]
  refine stems_of_primary fun rest hrest _ => ?_
  rw [h rest hrest, limited_true fits]

theorem stems_integer (n : Nat) (fits : n < 2 ^ 63) : Stems size d false (integer n fits) := by
  have short : n < 10 ^ NumeralFault.digitLimit :=
    fits.trans_le
      ((by decide : 2 ^ 63 ≤ 10 ^ 19).trans (Nat.pow_le_pow_right (by decide) (by decide)))
  have limit : Int.pow 2 63 = 9223372036854775808 := rfl
  have inside : Integer.fits n = true := (Integer.fits_iff n).2 (by omega)
  refine stems_atom rfl rfl fun rest _ => ?_
  simp only [words, List.singleton_append, primary, Token.bare_kind, Token.bare_text,
    integerNumeral, Numeral.integer_toString short, ok_bind]
  rw [if_pos inside]
  rfl

theorem stems_float (l : FloatLiteral) : Stems size d false (float l) := by
  refine stems_atom rfl rfl fun rest _ => ?_
  simp only [words, List.singleton_append, primary, Token.bare_kind, Token.bare_text,
    floatNumeral_text, ok_bind]
  rfl

theorem stems_name (x : PlainName) : Stems size d false (name x) := by
  refine stems_atom rfl rfl fun rest hrest => ?_
  simp only [words, List.singleton_append, primary, Token.bare_kind, Token.bare_text,
    no_arguments hrest, ok_bind]
  rfl

theorem stems_list (h : Reads size d Operator.levels) (items : List Phrase) :
    Stems size d false (list items) := by
  refine stems_of_primary fun rest _ hsize => ?_
  have hwords : (list items).words ++ rest =
      bare .leftBracket "[" :: (commaed (allWords items) ++ bare .rightBracket "]" :: rest) := by
    simp [words]
  rw [hwords] at hsize ⊢
  have hitems := items_reads h (.inr rfl) "]" items rest (Nat.le_of_succ_le hsize)
  rw [primary]
  simp only [Token.bare_kind, hitems, limited_bind, ok_bind, grow_bare, limited_limited, pure_eq_ok]
  refine limited_congr ?_
  simp only [Fits, AllFit, need, expr, height, Bool.toNat_false]
  omega

theorem stems_call (h : Reads size d Operator.levels) (f : PlainName) (arguments : List Phrase) :
    Stems size d false (call f arguments) := by
  refine stems_of_primary fun rest _ hsize => ?_
  have hwords : (call f arguments).words ++ rest =
      bare .identifier f.text :: (enclose true (commaed (allWords arguments)) ++ rest) := by
    simp [words]
  rw [hwords] at hsize ⊢
  have harguments := arguments_reads h arguments rest (Nat.le_of_succ_le hsize)
  rw [primary]
  simp only [Token.bare_kind, harguments, limited_bind, ok_bind, grow_bare, limited_limited,
    pure_eq_ok]
  refine limited_congr ?_
  simp only [Fits, AllFit, need, expr, height, Bool.toNat_false]
  omega

/-- The arguments of a member, which stand in parentheses if there are any. -/
theorem member_arguments (h : Reads size d Operator.levels) (arguments : List Phrase)
    {rest : List Token} (hrest : startsWith .leftParen rest = false)
    (hsize : (enclose (!arguments.isEmpty) (commaed (allWords arguments)) ++ rest).length ≤ size) :
    ∃ found, found.getD [] = exprs arguments ∧
      arguments? size .start (nested size d)
        (enclose (!arguments.isEmpty) (commaed (allWords arguments)) ++ rest) =
        limited (AllFit d arguments) (.ok (found, rest)) := by
  cases arguments with
  | nil =>
    have fits : AllFit d [] := ⟨Nat.zero_le _, Nat.zero_le _⟩
    refine ⟨none, rfl, ?_⟩
    rw [limited_true fits]
    exact no_arguments hrest _
  | cons p ps => exact ⟨_, rfl, arguments_reads h (p :: ps) rest hsize⟩

theorem stems_member (h : Reads size d Operator.levels) {target : Phrase} (x : Identifier)
    (arguments : List Phrase) (ht : Stems size d (encloseTarget target) target) :
    Stems size d false (member target x arguments) := by
  intro rest fuel hrest hsize hfuel
  have hwords : enclose false (member target x arguments).words ++ rest =
      enclose (encloseTarget target) target.words ++ (bare .dot "." :: bare .identifier x.text ::
        (enclose (!arguments.isEmpty) (commaed (allWords arguments)) ++ rest)) := by
    simp [enclose, words]
  rw [hwords] at hsize hfuel ⊢
  obtain ⟨fuel', enough, hstem⟩ := ht _ fuel rfl hsize hfuel
  obtain ⟨k, rfl⟩ : ∃ k, fuel' = k + 1 :=
    ⟨fuel' - 1, by simp only [List.length_cons] at enough; omega⟩
  simp only [List.length_cons, List.length_append] at enough hsize
  obtain ⟨found, hfound, hread⟩ :=
    member_arguments h arguments hrest (by rw [List.length_append]; omega)
  refine ⟨k, by omega, ?_⟩
  rw [hstem, postfixes_member hread, hfound, limited_limited]
  refine limited_congr ?_
  simp only [Fits, AllFit, need, expr, height, Bool.toNat_false]
  omega

theorem stems_index {target : Phrase} {n : Nat} (short : n < 10 ^ NumeralFault.digitLimit)
    (ht : Stems size d (encloseIndexed target) target) :
    Stems size d false (index target n short) := by
  intro rest fuel _ hsize hfuel
  have hwords : enclose false (index target n short).words ++ rest =
      enclose (encloseIndexed target) target.words ++
        (bare .dot "." :: bare .integer (toString n) :: rest) := by
    simp [enclose, words]
  rw [hwords] at hsize hfuel ⊢
  obtain ⟨fuel', enough, hstem⟩ := ht _ fuel rfl hsize hfuel
  obtain ⟨k, rfl⟩ : ∃ k, fuel' = k + 1 :=
    ⟨fuel' - 1, by simp only [List.length_cons] at enough; omega⟩
  simp only [List.length_cons] at enough
  refine ⟨k, by omega, ?_⟩
  rw [hstem, postfixes_index short, limited_limited]
  refine limited_congr ?_
  simp only [Fits, need, expr, height, Bool.toNat_false]
  omega

/-- The target of members and indexes is read first, and the loop takes them one by one. -/
theorem stems (h : Reads size d Operator.levels) (b : Bool) (p : Phrase)
    (hp : b = false → p.isTarget = true) :
    Stems size d b p := by
  cases b with
  | true => exact stems_group h p
  | false =>
    cases p with
    | integer n fits => exact stems_integer n fits
    | float l => exact stems_float l
    | string s => exact stems_atom rfl rfl fun _ _ => rfl
    | bool v => cases v <;> exact stems_atom rfl rfl fun _ _ => rfl
    | null => exact stems_atom rfl rfl fun _ _ => rfl
    | name x => exact stems_name x
    | list items => exact stems_list h items
    | call f arguments => exact stems_call h f arguments
    | member target x arguments =>
      have ht := stems h (encloseTarget target) target fun outside => by
        simpa [encloseTarget] using outside
      exact stems_member h x arguments ht
    | index target n short =>
      have ht := stems h (encloseIndexed target) target fun outside => by
        simpa [encloseIndexed] using (Bool.or_eq_false_iff.1 outside).1
      exact stems_index short ht
    | unary | binary => exact absurd (hp rfl) (by simp [isTarget])

theorem reads_zero (size : Nat) : Reads size 0 0 := by
  intro b p rest hp idle hsize
  have opens : Opens false (enclose b p.words) := (opens_words p).enclose fun _ => nofun
  obtain ⟨kind, text, more, heq, -⟩ := opens.append rest
  have hneed : 0 < p.need := need_pos p
  rw [limited_false (by simp only [Fits]; omega), heq]
  rfl

/-- One level of the descent more, for all tiers. -/
theorem reads_unary (h : ∀ n ≤ Operator.levels, Reads size d n) : Reads size (d + 1) 0 := by
  intro b p rest hp idle hsize
  by_cases target : b = false → p.isTarget = true
  · obtain ⟨fuel', -, hstem⟩ :=
      stems (h _ (Nat.le_refl _)) b p target rest _ idle.no_paren hsize hsize
    have opens : Opens true (enclose b p.words) := (opens_words p).enclose fun hb _ => target hb
    obtain ⟨kind, text, more, heq, -, -, unsigned⟩ := opens.append rest
    rw [postfixes_idle idle.no_dot] at hstem
    rw [← hstem, heq, tier, unaryOf, Token.bare_kind, unsigned rfl]
    rfl
  · obtain ⟨rfl, sign⟩ : b = false ∧ p.isTarget ≠ true := by simpa using target
    cases p with
    | integer | float | string | bool | null | name | list | call | member | index =>
      exact absurd rfl sign
    | binary op => exact absurd (hp rfl) (Nat.not_le.2 op.level_lt)
    | unary op operand =>
      have hwords : enclose false (unary op operand).words ++ rest =
          bare (signKind op) op.text ::
            (enclose (encloseOperand operand) operand.words ++ rest) := by
        simp [enclose, words]
      have hsign : unaryOperator? (signKind op) = some op := by cases op <;> rfl
      rw [hwords] at hsize ⊢
      have hoperand := h 0 (Nat.zero_le _) (encloseOperand operand) operand rest
        (fun ho => (level_eq ho).ge) idle (Nat.le_of_succ_le hsize)
      rw [tier] at hoperand
      rw [tier, unaryOf, Token.bare_kind, hsign]
      simp only [hoperand, limited_bind, ok_bind, grow_bare, limited_limited, pure_eq_ok]
      refine limited_congr ?_
      simp only [Fits, need, expr, height, Bool.toNat_false]
      omega

theorem reads (size d n : Nat) (hn : n ≤ Operator.levels) : Reads size d n := by
  induction d generalizing n with
  | zero => exact reads_levels (reads_zero size) hn
  | succ d ih => exact reads_levels (reads_unary ih) hn

end Levels

/-- The words of a phrase are read as its expression, unless that is too high. -/
theorem ofTokens_words (p : Phrase) :
    ofTokens .start p.words = limited (p.expr.height ≤ depthLimit) (.ok p.expr) := by
  have hread :=
    item_reads (reads p.words.length depthLimit _ (Nat.le_refl _)) p [] (idle_nil _) (by simp)
  rw [List.append_nil] at hread
  rw [ofTokens, Expr.read, hread, limited_bind, ok_bind]
  refine limited_congr ?_
  have := need_le_height p
  simp only [Fits, Bool.toNat_false]
  omega

end Stencil.Phrase
