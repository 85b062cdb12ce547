import Mathlib
import Stencil.Proofs.Token.Unplaced

/-! How a token is written, and that it is read back from what it was written as. A lexeme goes as
far as it can, so this depends on the characters behind it. -/
namespace Stencil

namespace Text

def Disjoint (u v : List (Nat × Nat)) : Bool :=
  u.all fun r => v.all fun s => Nat.blt r.2 s.1 || Nat.blt s.2 r.1

theorem inRanges_of_disjoint {u v : List (Nat × Nat)} {c : Char} (h : Disjoint u v = true)
    (hu : inRanges u c = true) :
    inRanges v c = false := by
  obtain ⟨r, hr, hrc⟩ := List.any_eq_true.1 hu
  rw [inRanges, List.any_eq_false]
  intro s hs hsc
  have apart := List.all_eq_true.1 (List.all_eq_true.1 h r hr) s hs
  simp only [Bool.or_eq_true, Nat.blt_eq] at apart
  simp only [Bool.and_eq_true, decide_eq_true_eq] at hrc hsc
  omega

theorem letterRanges_disjoint :
    Disjoint letterRanges (decimalDigitRuns ++ otherDigitRanges) = true := by
  decide +kernel

/-- A name cannot start like a number. -/
theorem isDigit_of_isLetter {c : Char} (h : isLetter c = true) : isDigit c = false := by
  unfold isLetter at h
  unfold isDigit
  split
  · rename_i ascii
    rw [if_pos ascii] at h
    simp only [Char.isAlpha, Char.isUpper, Char.isLower, Bool.or_eq_true, Bool.and_eq_true,
      decide_eq_true_eq, ge_iff_le, UInt32.le_iff_toNat_le] at h
    simp only [Char.isDigit, Bool.and_eq_false_iff, decide_eq_false_iff_not, ge_iff_le,
      UInt32.le_iff_toNat_le]
    simp only [Char.reduceVal, UInt32.reduceToNat] at h ⊢
    omega
  · rename_i ascii
    rw [if_neg ascii] at h
    have apart := inRanges_of_disjoint letterRanges_disjoint h
    rwa [inRanges, List.any_append] at apart

end Text

namespace Token

def escape (c : Char) : List Char := if c = '"' ∨ c = '\\' then ['\\', c] else [c]

def quote (cs : List Char) : List Char := '"' :: (cs.flatMap escape ++ ['"'])

def IsMark (c : Char) : Prop := c = '"' ∨ c = '\''

def guarded (mark : Char) (cs : List Char) : List Char :=
  cs.flatMap fun c => if c = mark ∨ c = '\\' then ['\\', c] else [c]

def quoteBy (mark : Char) (cs : List Char) : List Char := mark :: (guarded mark cs ++ [mark])

theorem guarded_cons (mark c : Char) (cs : List Char) :
    guarded mark (c :: cs) = (if c = mark ∨ c = '\\' then ['\\', c] else [c]) ++ guarded mark cs :=
  rfl

def spelling (kind : Kind) (text : List Char) : List Char :=
  if kind = .string then quote text else text

def source (t : Token) : List Char := spelling t.kind t.text.toList

def IsName : List Char → Prop
  | [] => False
  | c :: rest => isNameStart c = true ∧ ∀ d ∈ rest, isNamePart d = true

def AllDigits (cs : List Char) : Prop := cs ≠ [] ∧ ∀ c ∈ cs, Text.isDigit c = true

/-- The text is one that a token of this kind can have. Behind a dot there are no fractions and no
keywords. -/
inductive Spelled (afterDot : Bool) : Kind → List Char → Prop where
  | symbol {kind text} : symbol? text = some (kind, text) → Spelled afterDot kind text
  | string (text) : Spelled afterDot .string text
  | integer {text} : AllDigits text → Spelled afterDot .integer text
  | float {whole fraction} : afterDot = false → AllDigits whole → AllDigits fraction →
      Spelled afterDot .float (whole ++ '.' :: fraction)
  | name {text} : IsName text → (afterDot = false → Keyword.ofText? (String.ofList text) = none) →
      Spelled afterDot .identifier text
  | keyword (word : Keyword) : afterDot = false → Spelled afterDot (.keyword word) word.text.toList

theorem spelled_identifier {text : String} (h : IsName text.toList)
    (plain : Keyword.ofText? text = none) :
    Spelled false .identifier text.toList :=
  .name h fun _ => by rw [String.ofList_toList]; exact plain

def Apart (rest : List Char) : Prop := ∀ c ∈ rest.head?, c = ' ' ∨ c = '.'

theorem apart_space (rest : List Char) : Apart (' ' :: rest) := by simp [Apart]

def NoFraction (rest : List Char) : Prop :=
  ∀ d more, rest = '.' :: d :: more → Text.isDigit d = false

theorem Apart.cases {rest : List Char} (h : Apart rest) :
    rest = [] ∨ (∃ more, rest = ' ' :: more) ∨ ∃ more, rest = '.' :: more := by
  cases rest with
  | nil => exact .inl rfl
  | cons c more =>
    rcases h c rfl with rfl | rfl
    · exact .inr (.inl ⟨more, rfl⟩)
    · exact .inr (.inr ⟨more, rfl⟩)

theorem span_append {p : Char → Bool} {cs rest : List Char} (h : ∀ c ∈ cs, p c = true)
    (hr : ∀ c ∈ rest.head?, p c = false) :
    (cs ++ rest).takeWhile p = cs ∧ (cs ++ rest).dropWhile p = rest := by
  rw [List.takeWhile_append_of_pos h, List.dropWhile_append_of_pos h]
  cases rest with
  | nil => simp
  | cons c rest => simp [hr c rfl]

theorem Apart.not_part {rest : List Char} (h : Apart rest) :
    ∀ c ∈ rest.head?, isNamePart c = false := by
  intro c hc
  rcases h c hc with rfl | rfl <;> decide

theorem Apart.not_digit {rest : List Char} (h : Apart rest) :
    ∀ c ∈ rest.head?, Text.isDigit c = false := by
  intro c hc
  rcases h c hc with rfl | rfl <;> decide

def symbolChars : List Char :=
  ['=', '!', '>', '<', '&', '|', '.', ',', '(', ')', '[', ']', '+', '-', '*', '/', '%']

theorem symbolChars_plain :
    ∀ c ∈ symbolChars, Text.isDigit c = false ∧ isNameStart c = false ∧ isNamePart c = false ∧
      isSpace c = false ∧ c ≠ '"' ∧ c ≠ '\'' := by
  have plain : (symbolChars.all fun c =>
      !Text.isDigit c && !isNameStart c && !isNamePart c && !isSpace c && c != '"' && c != '\'') =
        true := by
    decide
  simpa [List.all_eq_true, and_assoc] using plain

theorem symbol?_eq_none {c : Char} (h : c ∉ symbolChars) (rest : List Char) :
    symbol? (c :: rest) = none := by
  unfold symbol?
  split
  case h_21 => rfl
  all_goals
    rename_i heq
    cases heq
    exact absurd (by decide) h

def symbols : List (Kind × List Char) :=
  (.not, ['!']) :: (.dot, ['.']) :: (.comma, [',']) :: (.leftParen, ['(']) ::
    (.rightParen, [')']) ::
    (.leftBracket, ['[']) :: (.rightBracket, [']']) ::
      Operator.all.map fun op => (.operator op, op.text.toList)

theorem mem_symbols {kind : Kind} {text : List Char} (h : symbol? text = some (kind, text)) :
    (kind, text) ∈ symbols := by
  unfold symbol? at h
  split at h <;> cases h <;> decide

/-- Each kind of operator or bracket is written in one way. -/
theorem symbols_unique {kind : Kind} {text text' : List Char} (h : (kind, text) ∈ symbols)
    (h' : (kind, text') ∈ symbols) : text = text' := by
  have once : (symbols.map Prod.fst).Nodup := by decide
  exact (Prod.mk.inj (List.inj_on_of_nodup_map once h h' rfl)).2

theorem symbols_ne_string : ∀ p ∈ symbols, p.1 ≠ .string := by decide

theorem symbols_dot : ∀ p ∈ symbols, p.1 = .dot → p.2 = ['.'] := by decide

theorem symbols_chars : ∀ p ∈ symbols, p.2 ≠ [] ∧ ∀ c ∈ p.2, c ∈ symbolChars := by
  have inside : (symbols.all fun p => !p.2.isEmpty && p.2.all symbolChars.contains) = true := by
    decide
  simpa only [List.all_eq_true, Bool.and_eq_true, Bool.not_eq_true', List.isEmpty_eq_false_iff,
    List.contains_iff_mem] using inside

/-- A symbol stays itself if it does not run into another one. -/
theorem symbol?_append {kind : Kind} {text rest : List Char} (h : symbol? text = some (kind, text))
    (hr : Apart rest) :
    symbol? (text ++ rest) = some (kind, text) := by
  unfold symbol? at h
  obtain rfl | ⟨more, rfl⟩ | ⟨more, rfl⟩ := hr.cases
  · rw [List.append_nil]; exact h
  · split at h <;> cases h <;> rfl
  · split at h <;> cases h <;> rfl

theorem isNamePart_of_isNameStart {c : Char} (h : isNameStart c = true) : isNamePart c = true := by
  simp only [isNameStart, Bool.or_eq_true] at h
  simp only [isNamePart, Bool.or_eq_true]
  exact h.imp_left Text.isAlphanumeric_of_isLetter

theorem IsName.exists_cons {text : List Char} (h : IsName text) :
    ∃ c rest, text = c :: rest ∧ isNameStart c = true ∧ ∀ d ∈ text, isNamePart d = true := by
  cases text with
  | nil => exact h.elim
  | cons c rest =>
    exact ⟨c, rest, rfl, h.1, List.forall_mem_cons.2 ⟨isNamePart_of_isNameStart h.1, h.2⟩⟩

theorem isName_keyword (word : Keyword) : IsName word.text.toList := by
  cases word <;> simp [Keyword.text, IsName] <;> decide

theorem isDigit_of_isNameStart {c : Char} (h : isNameStart c = true) : Text.isDigit c = false := by
  rw [isNameStart, Bool.or_eq_true, beq_iff_eq] at h
  rcases h with h | rfl
  · exact Text.isDigit_of_isLetter h
  · decide

theorem not_quote {p : Char → Bool} {c : Char} (h : p c = true) (double : p '"' = false)
    (single : p '\'' = false) :
    ¬ (c = '"' ∨ c = '\'') := by
  intro quote
  rcases quote with rfl | rfl
  · rw [double] at h; cases h
  · rw [single] at h; cases h

theorem IsMark.escaped {mark : Char} (h : IsMark mark) : escaped mark = mark := by
  rcases h with rfl | rfl <;> decide

theorem stringBody_guarded {mark : Char} (hm : IsMark mark) (cs rest : List Char) :
    stringBody mark (guarded mark cs ++ mark :: rest) =
      some (cs, (guarded mark cs).length + 1) := by
  have backslash : ∀ e : Char, ∀ more, mark = '\\' → rest = e :: more → False := by
    intro e more same
    rcases hm with rfl | rfl <;> cases same
  induction cs with
  | nil =>
    rw [guarded, List.flatMap_nil, List.nil_append, stringBody.eq_3 _ _ _ backslash,
      if_pos rfl]; rfl
  | cons c cs ih =>
    rw [guarded_cons, List.append_assoc]
    by_cases hc : c = mark ∨ c = '\\'
    · have he : Token.escaped c = c := by
        rcases hc with rfl | rfl
        · exact hm.escaped
        · decide
      rw [if_pos hc, List.cons_append, List.cons_append, List.nil_append, stringBody, ih]
      simp only [Option.map_some, he, List.length_append, List.length_cons, List.length_nil]
      congr 2
      omega
    · rw [if_neg hc, List.cons_append, List.nil_append]
      rw [not_or] at hc
      rw [stringBody.eq_3 _ _ _ (fun _ _ h _ => hc.2 h), if_neg hc.1, ih]
      simp only [Option.map_some, List.length_append, List.length_cons, List.length_nil]
      congr 2
      omega

theorem lexeme_guarded {mark : Char} (hm : IsMark mark) (afterDot : Bool) (cs rest : List Char) :
    lexeme afterDot mark (guarded mark cs ++ mark :: rest) =
      .ok ⟨.string, cs, (quoteBy mark cs).length⟩ := by
  have outside : mark ∉ symbolChars := by rcases hm with rfl | rfl <;> decide
  have quoted : mark = '"' ∨ mark = '\'' := hm
  rw [lexeme, symbol?_eq_none outside]
  simp only [if_pos quoted, stringBody_guarded hm]
  simp [quoteBy]

theorem lexeme_string (afterDot : Bool) (cs rest : List Char) :
    lexeme afterDot '"' (cs.flatMap escape ++ '"' :: rest) = .ok ⟨.string, cs, (quote cs).length⟩ :=
  lexeme_guarded (.inl rfl) afterDot cs rest

theorem lexeme_number {afterDot : Bool} {c : Char} {rest : List Char} (h : Text.isDigit c = true) :
    lexeme afterDot c rest = .ok (number afterDot (c :: rest)) := by
  have outside : c ∉ symbolChars := by
    intro hc
    rw [(symbolChars_plain c hc).1] at h
    cases h
  rw [lexeme, symbol?_eq_none outside]
  simp only [if_neg (not_quote h (by decide) (by decide)), if_pos h]

theorem number_integer {afterDot : Bool} {text rest : List Char} (h : AllDigits text)
    (hr : Apart rest) (hf : afterDot = false → NoFraction rest) :
    number afterDot (text ++ rest) = ⟨.integer, text, text.length⟩ := by
  obtain ⟨take, drop⟩ := span_append h.2 hr.not_digit
  unfold number
  rw [take, drop]
  cases afterDot with
  | true => rfl
  | false =>
    obtain rfl | ⟨more, rfl⟩ | ⟨more, rfl⟩ := hr.cases
    · rfl
    · rfl
    · cases more with
      | nil => rfl
      | cons d more => simp [hf rfl d more rfl]

theorem number_float {whole fraction rest : List Char} (hw : AllDigits whole)
    (hf : AllDigits fraction) (hr : Apart rest) :
    number false (whole ++ '.' :: fraction ++ rest) =
      ⟨.float, whole ++ '.' :: fraction, (whole ++ '.' :: fraction).length⟩ := by
  have dot : ∀ c ∈ ('.' :: (fraction ++ rest)).head?, Text.isDigit c = false := by
    intro c given
    cases given
    decide
  obtain ⟨take, drop⟩ := span_append hw.2 dot
  obtain ⟨take', -⟩ := span_append hf.2 hr.not_digit
  obtain ⟨hne, digits⟩ := hf
  cases fraction with
  | nil => exact absurd rfl hne
  | cons d fraction =>
    rw [List.append_assoc, List.cons_append, List.cons_append] at *
    unfold number
    rw [take, drop]
    simp only [digits d (by simp), if_true, take']

theorem lexeme_name {afterDot : Bool} {c : Char} {rest : List Char} (h : isNameStart c = true) :
    lexeme afterDot c rest = .ok (name afterDot (c :: rest)) := by
  have outside : c ∉ symbolChars := by
    intro hc
    rw [(symbolChars_plain c hc).2.1] at h
    cases h
  rw [lexeme, symbol?_eq_none outside]
  simp only [if_neg (not_quote h (by decide) (by decide)), isDigit_of_isNameStart h,
    Bool.false_eq_true, if_false, if_pos h]

theorem name_append {afterDot : Bool} {text rest : List Char} (h : IsName text)
    (hr : ∀ c ∈ rest.head?, isNamePart c = false) :
    name afterDot (text ++ rest) =
      ⟨if afterDot then .identifier
        else ((Keyword.ofText? (String.ofList text)).map Kind.keyword).getD .identifier,
        text, text.length⟩ := by
  obtain ⟨c, more, -, -, parts⟩ := h.exists_cons
  obtain ⟨take, -⟩ := span_append parts hr
  unfold name
  rw [take]
  cases afterDot with
  | true => rfl
  | false => cases h : Keyword.ofText? (String.ofList text) <;> simp [h]

theorem symbol_cons {kind : Kind} {text : List Char} (h : symbol? text = some (kind, text)) :
    ∃ c rest, text = c :: rest ∧ c ∈ symbolChars := by
  obtain ⟨hne, inside⟩ := symbols_chars _ (mem_symbols h)
  cases text with
  | nil => exact absurd rfl hne
  | cons c rest => exact ⟨c, rest, rfl, inside c (by simp)⟩

theorem space_ne_digit {c : Char} (h : Text.isDigit c = true) : isSpace c = false := by
  refine Bool.eq_false_iff.2 fun space => ?_
  simp only [isSpace, Bool.or_eq_true, beq_iff_eq] at space
  rcases space with ((rfl | rfl) | rfl) | rfl <;> revert h <;> decide

theorem space_ne_name {c : Char} (h : isNameStart c = true) : isSpace c = false := by
  refine Bool.eq_false_iff.2 fun space => ?_
  simp only [isSpace, Bool.or_eq_true, beq_iff_eq] at space
  rcases space with ((rfl | rfl) | rfl) | rfl <;> revert h <;> decide

theorem AllDigits.exists_cons {text : List Char} (h : AllDigits text) :
    ∃ c rest, text = c :: rest ∧ Text.isDigit c = true := by
  obtain ⟨hne, digits⟩ := h
  cases text with
  | nil => exact absurd rfl hne
  | cons c rest => exact ⟨c, rest, rfl, digits c (by simp)⟩

theorem lexeme_keyword (word : Keyword) {rest : List Char}
    (hr : ∀ c ∈ rest.head?, isNamePart c = false) :
    ∃ c cs, word.text.toList = c :: cs ∧ isSpace c = false ∧
      lexeme false c (cs ++ rest) =
        .ok ⟨.keyword word, word.text.toList, word.text.toList.length⟩ := by
  obtain ⟨c, cs, heq, hc, -⟩ := (isName_keyword word).exists_cons
  refine ⟨c, cs, heq, space_ne_name hc, ?_⟩
  rw [lexeme_name hc, ← List.cons_append, ← heq, name_append (isName_keyword word) hr,
    String.ofList_toList, Keyword.ofText?_text]
  rfl

/-- A text of some kind is read back whole, whatever may stand behind it. -/
theorem lexeme_spelling {afterDot : Bool} {kind : Kind} {text rest : List Char}
    (h : Spelled afterDot kind text)
    (hr : kind ≠ .dot → Apart rest) (hf : kind = .integer → afterDot = false → NoFraction rest) :
    ∃ c cs, spelling kind text = c :: cs ∧ isSpace c = false ∧
      lexeme afterDot c (cs ++ rest) = .ok ⟨kind, text, (spelling kind text).length⟩ := by
  cases h with
  | symbol found =>
    obtain ⟨c, cs, rfl, inside⟩ := symbol_cons found
    have whole : symbol? (c :: cs ++ rest) = some (kind, c :: cs) := by
      by_cases hk : kind = .dot
      · subst hk
        obtain ⟨rfl, rfl⟩ := List.cons.inj (symbols_dot _ (mem_symbols found) rfl)
        rfl
      · exact symbol?_append found (hr hk)
    rw [List.cons_append] at whole
    rw [spelling, if_neg (symbols_ne_string _ (mem_symbols found))]
    refine ⟨c, cs, rfl, (symbolChars_plain c inside).2.2.2.1, ?_⟩
    rw [lexeme, whole]
  | string =>
    exact ⟨_, _, rfl, by decide, by simpa [spelling] using lexeme_string afterDot text rest⟩
  | integer digits =>
    obtain ⟨c, cs, rfl, hc⟩ := digits.exists_cons
    refine ⟨c, cs, rfl, space_ne_digit hc, ?_⟩
    rw [lexeme_number hc, ← List.cons_append, number_integer digits (hr nofun) (hf rfl)]
    rfl
  | @float whole fraction behind hw hfraction =>
    subst behind
    obtain ⟨c, cs, rfl, hc⟩ := hw.exists_cons
    refine ⟨c, cs ++ '.' :: fraction, rfl, space_ne_digit hc, ?_⟩
    rw [lexeme_number hc, ← List.cons_append, ← List.cons_append,
      number_float hw hfraction (hr nofun)]
    rfl
  | name isName free =>
    obtain ⟨c, cs, rfl, hc, parts⟩ := isName.exists_cons
    refine ⟨c, cs, rfl, space_ne_name hc, ?_⟩
    rw [lexeme_name hc, ← List.cons_append, name_append isName (hr nofun).not_part]
    cases afterDot with
    | true => rfl
    | false =>
      rw [free rfl]
      rfl
  | keyword word behind =>
    subst behind
    exact lexeme_keyword word (hr nofun).not_part

theorem scanned_lexeme {afterDot : Bool} {c : Char} {cs text rest : List Char} {kind : Kind}
    (space : isSpace c = false)
    (found : lexeme afterDot c (cs ++ rest) = .ok ⟨kind, text, (c :: cs).length⟩) :
    scanned afterDot (c :: cs ++ rest) =
      (scanned (kind == .dot) rest).map (bare kind (String.ofList text) :: ·) := by
  have hdrop : (cs ++ rest).drop ((c :: cs).length - 1) = rest := by
    rw [List.length_cons, Nat.add_sub_cancel, List.drop_left]
  rw [← seen_scan (kind ==
    .dot) (Location.start.after (c :: (cs ++ rest) |>.take (c :: cs).length))]
  rw [List.cons_append, scanned, scan, if_neg (by simp [space]), found]
  simp only [hdrop]
  cases scan (kind == .dot) _ rest <;> rfl

/-- A written token comes first, whatever stands behind it. -/
theorem scanned_spelling {afterDot : Bool} {kind : Kind} {text rest : List Char}
    (h : Spelled afterDot kind text)
    (hr : kind ≠ .dot → Apart rest) (hf : kind = .integer → afterDot = false → NoFraction rest) :
    scanned afterDot (spelling kind text ++ rest) =
      (scanned (kind == .dot) rest).map (bare kind (String.ofList text) :: ·) := by
  obtain ⟨c, cs, heq, space, found⟩ := lexeme_spelling h hr hf
  rw [heq] at found ⊢
  exact scanned_lexeme space found

theorem symbol?_self {cs text : List Char} {kind : Kind} (h : symbol? cs = some (kind, text)) :
    symbol? text = some (kind, text) := by
  unfold symbol? at h
  split at h <;> cases h <;> rfl

theorem allDigits_takeWhile {c : Char} (h : Text.isDigit c = true) (rest : List Char) :
    AllDigits ((c :: rest).takeWhile Text.isDigit) := by
  exact ⟨by simp [h], fun d hd => List.mem_takeWhile_imp hd⟩

theorem number_spelled {afterDot : Bool} {c : Char} (h : Text.isDigit c = true) (rest : List Char) :
    Spelled afterDot (number afterDot (c :: rest)).kind (number afterDot (c :: rest)).text := by
  have whole := allDigits_takeWhile h rest
  unfold number
  split
  · split
    · rename_i d more _ hd
      exact .float rfl whole (allDigits_takeWhile hd more)
    · exact .integer whole
  · exact .integer whole

theorem name_spelled {afterDot : Bool} {c : Char} (h : isNameStart c = true) (rest : List Char) :
    Spelled afterDot (name afterDot (c :: rest)).kind (name afterDot (c :: rest)).text := by
  have isName : IsName ((c :: rest).takeWhile isNamePart) := by
    rw [List.takeWhile_cons_of_pos (isNamePart_of_isNameStart h)]
    exact ⟨h, fun d hd => List.mem_takeWhile_imp hd⟩
  unfold name
  generalize (c :: rest).takeWhile isNamePart = text at isName ⊢
  cases afterDot with
  | true => exact .name isName nofun
  | false =>
    cases hword : Keyword.ofText? (String.ofList text) with
    | none =>
      simp only [hword]
      exact .name isName fun _ => hword
    | some word =>
      have htext : text = word.text.toList := by
        have := List.find?_some hword
        rw [eq_of_beq this, String.toList_ofList]
      simp only [hword]
      rw [htext]
      exact .keyword word rfl

/-- Whatever is read is spelled as its kind is. -/
theorem lexeme_spelled {afterDot : Bool} {c : Char} {rest : List Char} {l : Lexeme}
    (h : lexeme afterDot c rest = .ok l) :
    Spelled afterDot l.kind l.text := by
  unfold lexeme at h
  split at h
  · rename_i kind text found
    cases h
    exact .symbol (symbol?_self found)
  · split at h
    · split at h
      · cases h
        exact .string _
      · cases h
    · split at h
      · rename_i digit
        cases h
        exact number_spelled digit rest
      · split at h
        · rename_i start
          cases h
          exact name_spelled start rest
        · cases h

def Lexed (afterDot : Bool) : List Token → Prop
  | [] => True
  | t :: rest => Spelled afterDot t.kind t.text.toList ∧ Lexed (t.kind == .dot) rest

theorem Lexed.of_mem {afterDot : Bool} {tokens : List Token} (h : Lexed afterDot tokens) {t : Token}
    (ht : t ∈ tokens) : ∃ afterDot, Spelled afterDot t.kind t.text.toList := by
  induction tokens generalizing afterDot with
  | nil => cases ht
  | cons u rest ih =>
    rcases List.mem_cons.1 ht with rfl | later
    · exact ⟨afterDot, h.1⟩
    · exact ih h.2 later

theorem scan_lexed {afterDot : Bool} {place stop : Location} {cs : List Char} {tokens : List Token}
    (h : scan afterDot place cs = .ok (tokens, stop)) : Lexed afterDot tokens := by
  fun_induction scan afterDot place cs generalizing tokens stop with
  | case1 =>
    cases h
    trivial
  | case2 afterDot place c rest space ih => exact ih h
  | case3 => cases h
  | case4 => cases h
  | case5 afterDot place c rest space l found tokens' stop' later ih =>
    cases h
    refine ⟨?_, ih later⟩
    rw [String.toList_ofList]
    exact lexeme_spelled found

theorem scanned_lexed {afterDot : Bool} {cs : List Char} {tokens : List Token}
    (h : scanned afterDot cs = .ok tokens) :
    Lexed afterDot tokens := by
  obtain ⟨found, stop, hscan, rfl⟩ := scanned_eq_ok .start h
  have lexed := scan_lexed hscan
  clear h hscan
  induction found generalizing afterDot with
  | nil => trivial
  | cons t rest ih => exact ⟨lexed.1, ih lexed.2⟩

end Token
end Stencil
