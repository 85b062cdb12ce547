import Stencil.Proofs.Part.Regions
import Stencil.Proofs.Segment.Exact
import Stencil.Proofs.Token.Layout

/-! The search for the end of a tag and the scan of its code read quotes each in its own way. Main
statement: the strings among the tokens stand exactly where the search passed over quotes. -/
namespace Stencil

namespace Token
open Outcome

def region (t : Token) : Region := ⟨t.place.offset, t.place.offset + t.width⟩

def strings (tokens : List Token) : List Region :=
  (tokens.filter fun t => t.kind = .string).map region

theorem strings_cons (t : Token) (rest : List Token) :
    strings (t :: rest) = (if t.kind = .string then [t.region] else []) ++ strings rest := by
  unfold strings
  rw [List.filter_cons]
  by_cases h : t.kind = .string <;> simp [h]

variable {afterDot : Bool} {c : Char} {rest tail : List Char} {i : Nat} {regions : List Region}

/-- A backslash inside quotes is never the last character of a code. -/
theorem ne_backslash_of_search {open_ : Char × Nat}
    (plain : ∀ e more, c = '\\' → rest = e :: more → False)
    (h : Part.search (some open_) i (c :: rest ++ tail) = some (c :: rest, regions)) :
    c ≠ '\\' := by
  intro backslash
  subst backslash
  cases rest with
  | nil => exact Part.search_inside_backslash _ _ _ _ h
  | cons e more => exact plain e more rfl rfl

/-- Inside quotes, both scans get to the same closing quote. -/
theorem stringBody_of_search {quote : Char} {start : Nat} {cs : List Char}
    (h : Part.search (some (quote, start)) i (cs ++ tail) = some (cs, regions)) :
    ∃ text width later, stringBody quote cs = some (text, width) ∧ width ≤ cs.length ∧
      Part.search none (i + width) (cs.drop width ++ tail) = some (cs.drop width, later) ∧
      regions = ⟨start, i + width⟩ :: later := by
  fun_induction stringBody quote cs generalizing i with
  | case1 => exact (Part.search_inside_nil _ _ _ _ h).elim
  | case2 e rest ih =>
    obtain ⟨text, width, later, body, short, found, rfl⟩ := ih (Part.search_backslash h)
    refine ⟨escaped e :: text, width + 2, later, by rw [body]; rfl, by simpa using short, ?_, ?_⟩
    · rw [Nat.add_comm width, ← Nat.add_assoc, Nat.add_comm 2]
      exact found
    · rw [Nat.add_comm width, ← Nat.add_assoc]
  | case3 rest plain =>
    have next := Part.search_inside (ne_backslash_of_search plain h) h
    rw [if_pos rfl] at next
    obtain ⟨later, found, rfl⟩ := next
    exact ⟨[], 1, later, rfl, by simp, by simpa using found, rfl⟩
  | case4 c rest plain other ih =>
    have next := Part.search_inside (ne_backslash_of_search plain h) h
    rw [if_neg other] at next
    obtain ⟨text, width, later, body, short, found, rfl⟩ := ih next
    refine ⟨c :: text, width + 1, later, by rw [body]; rfl, by simpa using short, ?_, ?_⟩
    · rw [Nat.add_comm width, ← Nat.add_assoc, Nat.add_comm 1]
      exact found
    · rw [Nat.add_comm width, ← Nat.add_assoc]

/-- What is spelled without quotes has no quote in it. -/
theorem Spelled.unquoted {kind : Kind} {text : List Char} (h : Spelled afterDot kind text)
    (hk : kind ≠ .string) : ∀ c ∈ text, ¬ (c = '"' ∨ c = '\'') := by
  have mute : ∀ c, Mute c → ¬ (c = '"' ∨ c = '\'') := fun c given => not_or.2 ⟨given.1, given.2.1⟩
  cases h with
  | symbol found =>
    obtain ⟨-, inside⟩ := symbols_chars _ (mem_symbols found)
    intro c hc
    exact not_or.2 (symbolChars_plain c (inside c hc)).2.2.2.2
  | string => exact absurd rfl hk
  | integer digits => exact fun c hc => mute c (mute_of_digit (digits.2 c hc))
  | float _ hw hf =>
    refine List.forall_mem_append.2 ⟨fun c hc => mute c (mute_of_digit (hw.2 c hc)),
      List.forall_mem_cons.2 ⟨by decide, fun c hc => mute c (mute_of_digit (hf.2 c hc))⟩⟩
  | name isName =>
    obtain ⟨-, -, -, -, parts⟩ := isName.exists_cons
    exact fun c hc => mute c (mute_of_part (parts c hc))
  | keyword word =>
    obtain ⟨-, -, -, -, parts⟩ := (isName_keyword word).exists_cons
    exact fun c hc => mute c (mute_of_part (parts c hc))

theorem Spelled.ne_nil {kind : Kind} {text : List Char} (h : Spelled afterDot kind text)
    (hk : kind ≠ .string) : text ≠ [] := by
  obtain ⟨c, cs, heq, -⟩ :=
    lexeme_spelling h (fun _ => apart_space []) fun _ _ => noFraction_space []
  rw [spelling, if_neg hk] at heq
  rw [heq]
  exact List.cons_ne_nil c cs

theorem number_isPrefix (afterDot : Bool) (cs : List Char) :
    (number afterDot cs).text <+: cs ∧
    (number afterDot cs).width = (number afterDot cs).text.length := by
  have whole := List.takeWhile_prefix Text.isDigit (l := cs)
  unfold number
  split
  · rename_i d rest heq
    split
    · refine ⟨?_, rfl⟩
      conv_rhs => rw [← List.takeWhile_append_dropWhile (p := Text.isDigit) (l := cs), heq]
      exact (List.prefix_append_right_inj _).2
        (List.cons_prefix_cons.2 ⟨rfl, List.takeWhile_prefix _⟩)
    · exact ⟨whole, rfl⟩
  · exact ⟨whole, rfl⟩

theorem symbol?_isPrefix {kind : Kind} {cs text : List Char} (h : symbol? cs = some (kind, text)) :
    text <+: cs := by
  unfold symbol? at h
  split at h <;> cases h <;> exact ⟨_, rfl⟩

/-- Whatever does not begin with a quote is read as it stands. -/
theorem lexeme_unquoted (afterDot : Bool) (rest : List Char) (hc : ¬ (c = '"' ∨ c = '\'')) :
    Meets (fun l => l.kind ≠ .string ∧ l.text <+: c :: rest ∧ l.width = l.text.length)
      (· ≠ .unterminatedString) (lexeme afterDot c rest) := by
  unfold lexeme
  split
  · rename_i kind text found
    exact ⟨symbols_ne_string _ (mem_symbols (symbol?_self found)), symbol?_isPrefix found, rfl⟩
  · rw [if_neg hc]
    split
    · refine ⟨?_, number_isPrefix ..⟩
      unfold number
      split
      · split <;> nofun
      · nofun
    · split
      · refine ⟨?_, List.takeWhile_prefix _, rfl⟩
        unfold name
        dsimp only
        split <;> nofun
      · nofun

theorem lexeme_quote (hc : c = '"' ∨ c = '\'') :
    lexeme afterDot c rest =
      match stringBody c rest with
      | some (text, width) => .ok ⟨.string, text, width + 1⟩
      | none => .error .unterminatedString := by
  have outside : c ∉ symbolChars := by
    intro inside
    obtain ⟨-, -, -, -, double, single⟩ := symbolChars_plain c inside
    exact hc.elim double single
  unfold lexeme
  rw [symbol?_eq_none outside]
  exact if_pos hc

/-- Outside quotes, both scans get past a lexeme in the same way. -/
theorem lexeme_of_search (afterDot : Bool)
    (h : Part.search none i (c :: rest ++ tail) = some (c :: rest, regions)) :
    Meets (fun l => 0 < l.width ∧ l.width ≤ (c :: rest).length ∧ ∃ later,
        Part.search none (i + l.width) ((c :: rest).drop l.width ++ tail) =
          some ((c :: rest).drop l.width, later) ∧
        regions = (if l.kind = .string then [⟨i, i + l.width⟩] else []) ++ later)
      (· ≠ .unterminatedString) (lexeme afterDot c rest) := by
  by_cases hc : c = '"' ∨ c = '\''
  · have opened := Part.search_outside h
    rw [if_pos hc] at opened
    obtain ⟨text, width, later, body, short, found, rfl⟩ := stringBody_of_search opened
    rw [lexeme_quote hc, body]
    refine ⟨width.succ_pos, by simpa using short, later, ?_, ?_⟩
    · rwa [Nat.add_assoc, Nat.add_comm 1] at found
    · rw [Nat.add_assoc, Nat.add_comm 1]
      rfl
  · have plain := lexeme_unquoted afterDot rest hc
    cases found : lexeme afterDot c rest with
    | error reason =>
      rw [found] at plain
      exact plain
    | ok l =>
      rw [found] at plain
      obtain ⟨kind, ⟨behind, heq⟩, width⟩ := plain
      have spelled := lexeme_spelled found
      have split : (c :: rest).drop l.width = behind := by rw [width, ← heq, List.drop_left]
      refine ⟨?_, ?_, regions, ?_, by rw [if_neg kind]; rfl⟩
      · rw [width]
        exact List.length_pos_iff.2 (spelled.ne_nil kind)
      · rw [width, ← heq, List.length_append]
        exact Nat.le_add_right _ _
      · rw [split, width]
        refine Part.search_append (spelled.unquoted kind) ?_
        rwa [← List.append_assoc, heq]

/-- What is left behind a lexeme is a code that the search has found too. -/
theorem rest_of_search {place : Location} {l : Lexeme} (found : lexeme afterDot c rest = .ok l)
    (h : Part.search none place.offset (c :: rest ++ tail) = some (c :: rest, regions)) :
    ∃ later, Part.search none (place.after ((c :: rest).take l.width)).offset
        (rest.drop (l.width - 1) ++ tail) = some (rest.drop (l.width - 1), later) ∧
      regions = (if l.kind = .string then [⟨place.offset, place.offset + l.width⟩] else []) ++
        later := by
  have met := lexeme_of_search afterDot h
  rw [found] at met
  obtain ⟨positive, short, later, behind, heq⟩ := met
  have hdrop : (c :: rest).drop l.width = rest.drop (l.width - 1) := by
    rw [← Nat.sub_one_add_one positive.ne', List.drop_succ_cons, Nat.add_sub_cancel]
  refine ⟨later, ?_, heq⟩
  rwa [Location.after_offset, List.length_take_of_le short, ← hdrop]

/-- The scan of a code that the search has found meets the same strings. -/
theorem scan_of_search (afterDot : Bool) {place : Location} {cs : List Char}
    (h : Part.search none place.offset (cs ++ tail) = some (cs, regions)) :
    Meets (fun found => strings found.1 = regions)
      (fun fault => ∀ p, fault ≠ .at .unterminatedString p) (scan afterDot place cs) := by
  fun_induction scan afterDot place cs generalizing regions with
  | case1 afterDot place => exact (Part.search_nil h).symm
  | case2 afterDot place c rest space ih =>
    apply ih
    have plain : ¬ (c = '"' ∨ c = '\'') := not_quote space (by decide) (by decide)
    have later := Part.search_outside h
    rwa [if_neg plain, ← Location.next_offset place c] at later
  | case3 afterDot place c rest space reason found =>
    have met := lexeme_of_search afterDot h
    rw [found] at met
    intro p same
    exact met (ParseFault.at.inj same).1
  | case4 afterDot place c rest space l found fault behind ih =>
    obtain ⟨later, hsearch, -⟩ := rest_of_search found h
    have met := ih hsearch
    rw [behind] at met
    exact met
  | case5 afterDot place c rest space l found tokens stop behind ih =>
    obtain ⟨later, hsearch, rfl⟩ := rest_of_search found h
    have met := ih hsearch
    rw [behind] at met
    rw [meets_ok, strings_cons, met]
    rfl

end Token

namespace Segment

/-- In an orderly row, a closing delimiter stands right behind every code. -/
theorem Orderly.code {segments before after : List Segment} {s : Segment} {kind : TagKind}
    (h : Orderly segments) (split : segments = before ++ s :: after) (hk : s.kind = .code kind) :
    Quotes.Closed .outside s.content ∧ ∃ rest, contents after = Part.closer ++ rest := by
  fun_induction Orderly segments generalizing before with
  | case1 s' place =>
    cases before with
    | nil => cases (List.cons.inj split).1 ▸ hk
    | cons b before => simp at split
  | case2 s' place rest ih =>
    cases before with
    | nil => cases (List.cons.inj split).1 ▸ hk
    | cons b before => exact ih h.2.2 (List.cons.inj split).2
  | case3 kind' o place kind'' code place' c place'' rest ih =>
    obtain ⟨rfl, rfl, hcode, rfl, orderly⟩ := h
    rcases before with _ | ⟨b, _ | ⟨b', _ | ⟨b'', before⟩⟩⟩
    · cases (List.cons.inj split).1 ▸ hk
    · obtain ⟨-, tail⟩ := List.cons.inj split
      obtain ⟨rfl, rfl⟩ := List.cons.inj tail
      exact ⟨hcode.2, contents rest, contents_cons ..⟩
    · obtain ⟨-, tail⟩ := List.cons.inj split
      cases (List.cons.inj (List.cons.inj tail).2).1 ▸ hk
    · obtain ⟨-, tail⟩ := List.cons.inj split
      exact ih orderly (List.cons.inj (List.cons.inj tail).2).2
  | case4 => exact h.elim

/-- Strings are where the cut of the template saw quotes. No code of a tag, wherever it is said to
stand, has an unterminated string; and if a code has tokens, the strings among them cover, in the
same order, the regions between quotes that the search from the start of the code on passes before
it finds its end. -/
theorem strings_eq_regions {source : String} {segments before after : List Segment} {s : Segment}
    {kind : TagKind} (h : ofSource source = .ok segments) (split : segments = before ++ s :: after)
    (hk : s.kind = .code kind) :
    ∃ regions,
      Part.search none s.place.offset (source.toList.drop s.place.offset) =
        some (s.content, regions) ∧
      (∀ l place, Token.ofCode l (String.ofList s.content) ≠
        .error (.at .unterminatedString place)) ∧
      ∀ tokens stop, Token.ofCode s.place (String.ofList s.content) = .ok (tokens, stop) →
        Token.strings tokens = regions := by
  obtain ⟨orderly, placed, hs⟩ := ofSource_eq_ok_iff.1 h
  obtain ⟨closed, rest, behind⟩ := orderly.code split hk
  have from_code : source.toList.drop s.place.offset = s.content ++ Part.closer ++ rest := by
    rw [offset_of_placed placed split, ← hs, split, contents_append, List.drop_left,
      contents_cons, behind, List.append_assoc]
  obtain ⟨regions, found⟩ := Part.exists_search closed s.place.offset rest
  refine ⟨regions, by rw [from_code, found], ?_, ?_⟩
  · intro l place failed
    obtain ⟨regions', found'⟩ := Part.exists_search closed l.offset rest
    rw [List.append_assoc] at found'
    have met := Token.scan_of_search false found'
    rw [Token.ofCode, String.toList_ofList] at failed
    rw [failed] at met
    exact met place rfl
  · intro tokens stop scanned
    rw [List.append_assoc] at found
    have met := Token.scan_of_search false found
    rw [Token.ofCode, String.toList_ofList] at scanned
    rw [scanned] at met
    exact met

theorem strings_of_quoted_closer :
    Part.search none 3 " \"%>\" + 'b' %>".toList =
      some (" \"%>\" + 'b' ".toList, [⟨4, 8⟩, ⟨11, 14⟩]) ∧
      ∀ tokens stop, Token.ofCode ⟨3, 1, 4⟩ " \"%>\" + 'b' " = .ok (tokens, stop) →
        Token.strings tokens = [⟨4, 8⟩, ⟨11, 14⟩] := by
  have searched : Part.search none 3 " \"%>\" + 'b' %>".toList =
      some (" \"%>\" + 'b' ".toList, [⟨4, 8⟩, ⟨11, 14⟩]) := by decide
  have cut : ofSource "<%= \"%>\" + 'b' %>" = .ok
      ([⟨.opener .escaped, ['<', '%', '='], .start⟩] ++
        ⟨.code .escaped, " \"%>\" + 'b' ".toList, ⟨3, 1, 4⟩⟩ ::
          [⟨.closer, ['%', '>'], ⟨15, 1, 16⟩⟩, ⟨.stop, [], ⟨17, 1, 18⟩⟩]) := by decide +kernel
  obtain ⟨regions, found, -, same⟩ := strings_eq_regions cut rfl rfl
  obtain rfl : [⟨4, 8⟩, ⟨11, 14⟩] = regions :=
    (Prod.mk.inj (Option.some.inj (searched.symm.trans found))).2
  exact ⟨searched, same⟩

end Segment
end Stencil
