import Stencil.Proofs.Part.Quotes
import Stencil.Segment

/-! The cut of a template into parts is exact: parts that keep the rules below are what their
sources put together are cut into, and every text is such a row of parts, or one with a tag left
open behind it. -/
namespace Stencil.Part

def Literal (cs : List Char) : Prop := cs ≠ [] ∧ ¬ TagKind.statement.opener <:+: cs

def AtTag (cs : List Char) : Prop := cs = [] ∨ TagKind.statement.opener <+: cs

def Begins (kind : TagKind) (cs : List Char) : Prop :=
  kind = .statement → cs.head? ≠ some '=' ∧ cs.head? ≠ some '-'

def Code (kind : TagKind) (code : List Char) : Prop :=
  Begins kind code ∧ Quotes.Closed .outside code

theorem textRun_append {s rest : List Char} (h : ¬ TagKind.statement.opener <:+: s)
    (ht : AtTag rest) :
    textRun (s ++ rest) = s := by
  induction s with
  | nil =>
    obtain rfl | ⟨more, rfl⟩ := ht
    · rfl
    · rfl
  | cons c s ih =>
    have later : ¬ TagKind.statement.opener <:+: s :=
      fun hs => h (hs.trans (List.infix_cons_iff.2 (.inr (List.infix_refl s))))
    have here : ∀ more, c = '<' → s ++ rest = '%' :: more → False := by
      intro more same heq
      subst same
      cases s with
      | nil =>
        obtain rfl | ⟨after, rfl⟩ := ht
        · simp at heq
        · simp [TagKind.opener] at heq
      | cons d s =>
        obtain ⟨rfl, -⟩ := List.cons.inj heq
        exact h ⟨[], s, rfl⟩
    rw [List.cons_append, textRun.eq_2 _ _ here, ih later]

theorem textRun_atTag (cs : List Char) : ∃ rest, cs = textRun cs ++ rest ∧ AtTag rest := by
  fun_induction textRun cs with
  | case1 rest => exact ⟨_, rfl, .inr ⟨rest, rfl⟩⟩
  | case2 c rest h ih =>
    obtain ⟨more, heq, ht⟩ := ih
    exact ⟨more, by rw [List.cons_append, ← heq], ht⟩
  | case3 => exact ⟨[], rfl, .inl rfl⟩

theorem textRun_literal (cs : List Char) : ¬ TagKind.statement.opener <:+: textRun cs := by
  fun_induction textRun cs with
  | case1 => simp [TagKind.opener]
  | case2 c rest h ih =>
    rw [List.infix_cons_iff, not_or]
    refine ⟨?_, ih⟩
    intro given
    obtain ⟨more, heq⟩ := given
    obtain ⟨hc, hrun⟩ := List.cons.inj heq
    obtain ⟨after, hrest, -⟩ := textRun_atTag rest
    exact h (more ++ after) hc.symm (by rw [hrest, ← hrun]; rfl)
  | case3 => simp [TagKind.opener]

theorem kindOf_opener {kind : TagKind} {cs : List Char} (h : Begins kind cs) :
    kindOf (kind.opener.drop 2 ++ cs) = kind := by
  cases kind with
  | statement =>
    obtain ⟨h₁, h₂⟩ := h rfl
    cases cs with
    | nil => rfl
    | cons c cs =>
      simp only [TagKind.opener, List.drop_succ_cons, List.drop_zero, List.nil_append]
      unfold kindOf
      split <;> simp_all
  | escaped => rfl
  | raw => rfl

theorem begins_kindOf (cs : List Char) :
    ∃ rest, '<' :: '%' :: cs = (kindOf cs).opener ++ rest ∧ Begins (kindOf cs) rest := by
  unfold kindOf
  split
  · exact ⟨_, rfl, nofun⟩
  · exact ⟨_, rfl, nofun⟩
  · rename_i h₁ h₂
    refine ⟨cs, rfl, fun _ => ?_⟩
    cases cs <;> simp_all

theorem scan_literal {s rest : List Char} (h : Literal s) (ht : AtTag rest) (place : Location) :
    scan place (s ++ rest) =
      (scan (place.after s) rest).map (text place (String.ofList s) :: ·) := by
  obtain ⟨hne, hs⟩ := h
  have run := textRun_append hs ht
  cases s with
  | nil => exact absurd rfl hne
  | cons c s =>
    have here : ∀ more, c = '<' → s ++ rest = '%' :: more → False := by
      intro more same heq
      subst same
      rw [List.cons_append, heq] at run
      simp [textRun] at run
    rw [List.cons_append, textRun.eq_2 _ _ here] at run
    rw [List.cons_append, scan.eq_3 _ _ _ here, run, (List.cons.inj run).2, List.drop_left]
    cases scan (place.after (c :: s)) rest <;> rfl

theorem scan_tag {kind : TagKind} {code : List Char} (h : Code kind code) (rest : List Char)
    (place : Location) :
    scan place (kind.opener ++ code ++ closer ++ rest) =
      (scan (place.after (kind.opener ++ code ++ closer)) rest).map
        (tag kind place (String.ofList code) :: ·) := by
  obtain ⟨begins, closed⟩ := h
  have behind : Begins kind (code ++ closer ++ rest) := by
    intro hk
    cases code with
    | nil => simp [closer]
    | cons c code => exact begins hk
  have found : codeRun none (code ++ closer ++ rest) = some code := by
    apply Quotes.codeRun_append
    exact closed
  have hkind := kindOf_opener behind
  have hopen : kind.opener ++ code ++ closer ++ rest =
      '<' :: '%' :: (kind.opener.drop 2 ++ (code ++ closer ++ rest)) := by
    cases kind <;> simp [TagKind.opener]
  have hdrop : (kind.opener.drop 2 ++ (code ++ closer ++ rest)).drop (kind.opener.length - 2) =
      code ++ closer ++ rest := by cases kind <;> rfl
  have hrest : (kind.opener.drop 2 ++ (code ++ closer ++ rest)).drop
      (kind.opener.length - 2 + code.length + 2) = rest := by
    rw [Nat.add_assoc, ← List.drop_drop, hdrop]
    exact List.drop_left' (by simp [closer])
  have htake : (kind.opener ++ code ++ closer ++ rest).take
      (kind.opener.length - 2 + code.length + 2 + 2) = kind.opener ++ code ++ closer :=
    List.take_left' (by cases kind <;> simp [TagKind.opener, closer] <;> omega)
  rw [hopen] at htake ⊢
  rw [scan.eq_2]
  simp only [hkind, hdrop, found, hrest, htake]
  cases scan (place.after (kind.opener ++ code ++ closer)) rest <;> rfl

theorem scan_unclosed {kind : TagKind} {rest : List Char} (h : Begins kind rest)
    (open_ : Quotes.Guarded .outside rest) (place : Location) :
    scan place (kind.opener ++ rest) = .error (.at .unclosedTag place) := by
  have none_found := (Quotes.codeRun_eq_none_iff none rest).2 open_
  have hkind := kindOf_opener h
  have hopen : kind.opener ++ rest = '<' :: '%' :: (kind.opener.drop 2 ++ rest) := by
    cases kind <;> rfl
  have hdrop : (kind.opener.drop 2 ++ rest).drop (kind.opener.length - 2) = rest := by
    cases kind <;> rfl
  rw [hopen, scan.eq_2]
  simp only [hkind, hdrop, none_found]

/-- Every text ends, starts with literal text, with a whole tag, or with a tag that is left open. -/
theorem cut (cs : List Char) :
    cs = [] ∨ (∃ s rest, Literal s ∧ AtTag rest ∧ cs = s ++ rest) ∨
      (∃ kind code rest, Code kind code ∧ cs = kind.opener ++ code ++ closer ++ rest) ∨
      ∃ kind rest, Begins kind rest ∧ Quotes.Guarded .outside rest ∧ cs = kind.opener ++ rest := by
  by_cases hne : cs = []
  · exact .inl hne
  by_cases htag : TagKind.statement.opener <+: cs
  · obtain ⟨behind, rfl⟩ := htag
    obtain ⟨rest, heq, begins⟩ := begins_kindOf behind
    have hcs : TagKind.statement.opener ++ behind = (kindOf behind).opener ++ rest := heq
    rw [hcs]
    cases found : codeRun none rest with
    | none =>
      exact .inr (.inr (.inr ⟨_, rest, begins, (Quotes.codeRun_eq_none_iff ..).1 found, rfl⟩))
    | some code =>
      obtain ⟨closed, after, rfl⟩ := Quotes.closed_of_codeRun found
      refine .inr (.inr (.inl ⟨kindOf behind, code, after, ⟨?_, closed⟩, by simp⟩))
      intro hk
      cases code with
      | nil => simp
      | cons c code => exact begins hk
  · obtain ⟨rest, heq, ht⟩ := textRun_atTag cs
    refine .inr (.inl ⟨textRun cs, rest, ⟨?_, textRun_literal cs⟩, ht, heq⟩)
    intro hrun
    rw [hrun, List.nil_append] at heq
    subst heq
    exact ht.elim hne htag

def Row : List Part → Prop
  | [] => True
  | text _ s :: rest =>
    Literal s.toList ∧ (∀ place s', rest.head? ≠ some (text place s')) ∧ Row rest
  | tag kind _ code :: rest => Code kind code.toList ∧ Row rest

theorem Row.tail {p : Part} {parts : List Part} (h : Row (p :: parts)) : Row parts := by
  cases p with
  | text => exact h.2.2
  | tag => exact h.2

def Placed : Location → List Part → Prop
  | _, [] => True
  | l, p :: rest => p.place = l ∧ Placed (l.after p.source) rest

def sources (parts : List Part) : List Char := parts.flatMap source

@[simp] theorem sources_nil : sources [] = [] := rfl

@[simp] theorem sources_cons (p : Part) (parts : List Part) :
    sources (p :: parts) = p.source ++ sources parts := rfl

theorem sources_append (u v : List Part) : sources (u ++ v) = sources u ++ sources v :=
  List.flatMap_append

theorem placed_append (l : Location) (u v : List Part) :
    Placed l (u ++ v) ↔ Placed l u ∧ Placed (l.after (sources u)) v := by
  induction u generalizing l with
  | nil => simp [Placed]
  | cons p u ih => simp [Placed, ih, Location.after_append, and_assoc]

theorem atTag_sources {parts : List Part} {rest : List Char}
    (h : ∀ place s, parts.head? ≠ some (text place s)) (ht : AtTag rest) :
    AtTag (sources parts ++ rest) := by
  cases parts with
  | nil => exact ht
  | cons p parts =>
    cases p with
    | text place s => exact absurd rfl (h place s)
    | tag kind place code =>
      refine .inr ?_
      cases kind <;> simp [source, TagKind.opener]

theorem scan_row {parts : List Part} {place : Location} (h : Row parts) (hp : Placed place parts)
    {rest : List Char} (ht : AtTag rest) :
    scan place (sources parts ++ rest) =
      (scan (place.after (sources parts)) rest).map (parts ++ ·) := by
  induction parts generalizing place with
  | nil =>
    simp only [sources_nil, List.nil_append, Location.after_nil]
    cases scan place rest <;> rfl
  | cons p parts ih =>
    rw [sources_cons, List.append_assoc, Location.after_append]
    cases p with
    | text l s =>
      obtain ⟨literal, apart, row⟩ := h
      obtain ⟨rfl, placed⟩ : l = place ∧ Placed (place.after s.toList) parts := hp
      rw [source, scan_literal literal (atTag_sources apart ht), ih row placed,
        String.ofList_toList]
      cases scan _ rest <;> rfl
    | tag kind l code =>
      obtain ⟨hcode, row⟩ := h
      obtain ⟨rfl, placed⟩ : l = place ∧
        Placed (place.after (kind.opener ++ code.toList ++ closer)) parts := hp
      rw [source, scan_tag hcode, ih row placed, String.ofList_toList]
      cases scan _ rest <;> rfl

/-- What is left where no more parts can be cut off: nothing, or a tag that is left open. -/
def Stuck (rest : List Char) : Prop :=
  rest = [] ∨
    ∃ kind behind, Begins kind behind ∧ Quotes.Guarded .outside behind ∧
    rest = kind.opener ++ behind

theorem Stuck.atTag {rest : List Char} (h : Stuck rest) : AtTag rest := by
  obtain rfl | ⟨kind, behind, -, -, rfl⟩ := h
  · exact .inl rfl
  · refine .inr ?_
    cases kind <;> simp [TagKind.opener]

/-- Every text is a row of parts with nothing or an open tag behind it. -/
theorem exists_row (place : Location) (cs : List Char) :
    ∃ parts rest, Row parts ∧ Placed place parts ∧ Stuck rest ∧ cs = sources parts ++ rest := by
  induction hn : cs.length using Nat.strong_induction_on generalizing place cs with
  | _ n ih =>
    subst hn
    obtain rfl | ⟨s, rest, literal, ht, rfl⟩ | ⟨kind, code, rest, hcode, rfl⟩ |
      ⟨kind, rest, begins, guarded, rfl⟩ := cut cs
    · exact ⟨[], [], trivial, trivial, .inl rfl, rfl⟩
    · have shorter : rest.length < (s ++ rest).length := by
        have := List.length_pos_iff.2 literal.1
        simp only [List.length_append]
        omega
      obtain ⟨parts, tail, row, placed, stuck, rfl⟩ := ih _ shorter (place.after s) rest rfl
      refine ⟨text place (String.ofList s) :: parts, tail, ⟨by simpa using literal, ?_, row⟩,
        ⟨rfl, ?_⟩, stuck, ?_⟩
      · -- a text behind a text would have been read with it
        intro place' s' hhead
        cases parts with
        | nil => simp at hhead
        | cons p parts =>
          obtain rfl : p = text place' s' := by simpa using hhead
          obtain ⟨literal', apart', -⟩ := row
          have run := textRun_append literal'.2 (atTag_sources apart' stuck.atTag)
          rw [sources_cons, List.append_assoc, source] at ht
          obtain hnil | ⟨more, heq⟩ := ht
          · exact literal'.1 (List.append_eq_nil_iff.1 hnil).1
          · rw [← heq] at run
            exact literal'.1 (run.symm.trans rfl)
      · simpa [source] using placed
      · simp [source]
    · have shorter : rest.length < (kind.opener ++ code ++ closer ++ rest).length := by
        simp only [List.length_append, closer, List.length_cons]
        omega
      obtain ⟨parts, tail, row, placed, stuck, rfl⟩ :=
        ih _ shorter (place.after (kind.opener ++ code ++ closer)) rest rfl
      refine ⟨tag kind place (String.ofList code) :: parts, tail, ⟨by simpa using hcode, row⟩,
        ⟨rfl, ?_⟩, stuck, ?_⟩
      · simpa [source] using placed
      · simp [source]
    · exact ⟨[], _, trivial, trivial, .inr ⟨kind, rest, begins, guarded, rfl⟩, rfl⟩

/-- Parts come out exactly for the rows of parts that make up the text. -/
theorem scan_eq_ok_iff {place : Location} {cs : List Char} {parts : List Part} :
    scan place cs = .ok parts ↔ Row parts ∧ Placed place parts ∧ sources parts = cs := by
  constructor
  · intro h
    obtain ⟨parts', rest, row, placed, stuck, rfl⟩ := exists_row place cs
    rw [scan_row row placed stuck.atTag] at h
    obtain rfl | ⟨kind, behind, begins, guarded, rfl⟩ := stuck
    · obtain rfl : parts' = parts := by simpa [scan, Except.map] using h
      exact ⟨row, placed, by simp⟩
    · rw [scan_unclosed begins guarded] at h
      cases h
  · intro given
    obtain ⟨row, placed, rfl⟩ := given
    have h := scan_row row placed (.inl rfl : AtTag [])
    simpa [scan, Except.map] using h

/-- The only fault is a tag left open, at its opener. -/
theorem scan_eq_error_iff {place : Location} {cs : List Char} {fault : ParseFault} :
    scan place cs = .error fault ↔ ∃ parts kind behind, Row parts ∧ Placed place parts ∧
      Begins kind behind ∧
      Quotes.Guarded .outside behind ∧ cs = sources parts ++ (kind.opener ++ behind) ∧
      fault = .at .unclosedTag (place.after (sources parts)) := by
  constructor
  · intro h
    obtain ⟨parts, rest, row, placed, stuck, rfl⟩ := exists_row place cs
    rw [scan_row row placed stuck.atTag] at h
    obtain rfl | ⟨kind, behind, begins, guarded, rfl⟩ := stuck
    · simp [scan, Except.map] at h
    · rw [scan_unclosed begins guarded] at h
      exact ⟨parts, kind, behind, row, placed, begins, guarded, rfl, by cases h; rfl⟩
  · intro given
    obtain ⟨parts, kind, behind, row, placed, begins, guarded, rfl, rfl⟩ := given
    have stuck : Stuck (kind.opener ++ behind) := .inr ⟨kind, behind, begins, guarded, rfl⟩
    rw [scan_row row placed stuck.atTag, scan_unclosed begins guarded]
    rfl

end Stencil.Part
