import Stencil.Proofs.Token.Standing

/-! Tokens and the code they were read from. Main statement: the sources of the tokens lie in the
code one behind the other with nothing but blanks around them, each is what its token says, and the
tokens written out again with a blank between neighbours are read back. -/
namespace Stencil.Token
open Outcome
variable {afterDot : Bool} {place stop : Location} {cs text : List Char} {c mark : Char} {t : Token}
  {tokens : List Token}

inductive Enclosed (mark : Char) : List Char → List Char → Prop where
  | nil : Enclosed mark [] []
  | escape (e : Char) {body text : List Char} : Enclosed mark body text →
      Enclosed mark ('\\' :: e :: body) (escaped e :: text)
  | plain {c : Char} {body text : List Char} : c ≠ mark → c ≠ '\\' → Enclosed mark body text →
      Enclosed mark (c :: body) (c :: text)

theorem enclosed_of_stringBody {width : Nat} (h : stringBody mark cs = some (text, width)) :
    ∃ body rest, cs = body ++ mark :: rest ∧ width = body.length + 1 ∧ Enclosed mark body text := by
  fun_induction stringBody mark cs generalizing text width with
  | case1 => cases h
  | case2 e rest ih =>
    obtain ⟨⟨text', width'⟩, found, same⟩ := Option.map_eq_some_iff.1 h
    cases same
    obtain ⟨body, behind, rfl, rfl, enclosed⟩ := ih found
    exact ⟨'\\' :: e :: body, behind, rfl, rfl, .escape e enclosed⟩
  | case3 rest =>
    cases h
    exact ⟨[], rest, rfl, rfl, .nil⟩
  | case4 c rest lone other ih =>
    obtain ⟨⟨text', width'⟩, found, same⟩ := Option.map_eq_some_iff.1 h
    cases same
    obtain ⟨body, behind, rfl, rfl, enclosed⟩ := ih found
    -- the closing quote is still to come, so a backslash here would have something to take with it
    have plain : c ≠ '\\' := by
      intro backslash
      cases body with
      | nil => exact lone mark behind backslash rfl
      | cons d body => exact lone d (body ++ mark :: behind) backslash rfl
    exact ⟨c :: body, behind, rfl, rfl, .plain other plain enclosed⟩

/-- This source and nothing else says the text: between its quotes if it is a string, and else as it
stands. -/
def SourceOf (kind : Kind) (text span : List Char) : Prop :=
  if kind = .string then ∃ mark body, IsMark mark ∧ span = mark :: (body ++ [mark]) ∧
    Enclosed mark body text
  else span = text

theorem sourceOf_lexeme {rest : List Char} {l : Lexeme} (h : lexeme afterDot c rest = .ok l) :
    SourceOf l.kind l.text ((c :: rest).take l.width) := by
  by_cases quote : c = '"' ∨ c = '\''
  · rw [lexeme_quote quote] at h
    split at h
    · rename_i text width found
      cases h
      obtain ⟨body, behind, rfl, rfl, enclosed⟩ := enclosed_of_stringBody found
      refine ⟨c, body, quote, ?_, enclosed⟩
      rw [List.take_succ_cons, List.take_length_add_append]
      rfl
    · cases h
  · have plain := lexeme_unquoted afterDot rest quote
    rw [h] at plain
    obtain ⟨kind, inside, width⟩ := plain
    rw [SourceOf, if_neg kind, width]
    exact (List.prefix_iff_eq_take.1 inside).symm

/-- The code from this place on is the sources of these tokens, with blanks before, between and
behind them. -/
inductive Tiled : Location → List Char → List Token → Prop where
  | blanks {place : Location} {cs : List Char} : (∀ c ∈ cs, isSpace c = true) → Tiled place cs []
  | token {place : Location} {blanks span rest : List Char} {t : Token} {tokens : List Token} :
      (∀ c ∈ blanks, isSpace c = true) → t.place = place.after blanks → t.width = span.length →
      0 < t.width →
      SourceOf t.kind t.text.toList span → Tiled (t.place.after span) rest tokens →
      Tiled place (blanks ++ (span ++ rest)) (t :: tokens)

theorem Tiled.cons_blank (space : isSpace c = true) (h : Tiled (place.next c) cs tokens) :
    Tiled place (c :: cs) tokens := by
  cases h with
  | blanks blank => exact .blanks (List.forall_mem_cons.2 ⟨space, blank⟩)
  | @token _ blanks span rest t tokens blank start width positive source later =>
    have blank' : ∀ d ∈ c :: blanks, isSpace d = true := List.forall_mem_cons.2 ⟨space, blank⟩
    exact .token blank' start width positive source later

theorem scan_tiled (h : scan afterDot place cs = .ok (tokens, stop)) : Tiled place cs tokens := by
  fun_induction scan afterDot place cs generalizing tokens stop with
  | case1 =>
    cases h
    exact .blanks (List.forall_mem_nil _)
  | case2 afterDot place c rest space ih => exact (ih h).cons_blank space
  | case3 => cases h
  | case4 => cases h
  | case5 afterDot place c rest space l found tokens' stop' behind ih =>
    cases h
    obtain ⟨positive, short, -⟩ := lexeme_taken found
    have source := sourceOf_lexeme found
    rw [← String.toList_ofList (l := l.text)] at source
    have tiled : Tiled place ([] ++ ((c :: rest).take l.width ++ rest.drop (l.width - 1)))
        (⟨l.kind, String.ofList l.text, place, l.width⟩ :: tokens') :=
      .token (List.forall_mem_nil _) rfl (List.length_take_of_le short).symm positive source
        (ih behind)
    rwa [List.nil_append, take_append_drop_lexeme found] at tiled

def span (place : Location) (cs : List Char) (t : Token) : List Char :=
  (cs.drop (t.region.start - place.offset)).take t.width

/-- Where a token stands that is the first one behind some blanks. -/
theorem region_of_first {blanks span : List Char} (start : t.place = place.after blanks)
    (width : t.width = span.length) :
    t.region = ⟨place.offset + blanks.length, place.offset + blanks.length + span.length⟩ := by
  rw [region, start, width, Location.after_offset]

namespace Tiled

theorem within (h : Tiled place cs tokens) : ∀ t ∈ tokens, place.offset ≤ t.region.start ∧
    t.region.start < t.region.stop ∧ t.region.stop ≤ place.offset + cs.length := by
  induction h with
  | blanks => exact List.forall_mem_nil _
  | @token place blanks span rest t tokens _ start width positive _ _ ih =>
    have here := region_of_first start width
    rw [width] at positive
    refine List.forall_mem_cons.2 ⟨?_, fun u hu => ?_⟩
    · simp only [here, List.length_append]
      omega
    · obtain ⟨behind, wide, inside⟩ := ih u hu
      rw [start, Location.after_offset, Location.after_offset] at behind inside
      simp only [List.length_append]
      omega

/-- Sources are disjoint and in order. -/
theorem apart (h : Tiled place cs tokens) :
    tokens.Pairwise fun t u => t.region.stop ≤ u.region.start := by
  induction h with
  | blanks => exact .nil
  | @token place blanks span rest t tokens _ start width _ _ later ih =>
    refine .cons (fun u hu => ?_) ih
    have behind := (later.within u hu).1
    rw [start, Location.after_offset, Location.after_offset] at behind
    rwa [region_of_first start width]

/-- Each source is what its token says. -/
theorem source (h : Tiled place cs tokens) :
    ∀ t ∈ tokens, SourceOf t.kind t.text.toList (t.span place cs) := by
  induction h with
  | blanks => exact List.forall_mem_nil _
  | @token place blanks span rest t tokens _ start width _ source later ih =>
    refine List.forall_mem_cons.2 ⟨?_, fun u hu => ?_⟩
    · rw [Token.span, region_of_first start width, width, Nat.add_sub_cancel_left, List.drop_left,
        List.take_left]
      exact source
    · have behind := (later.within u hu).1
      rw [start, Location.after_offset, Location.after_offset] at behind
      have offset : u.region.start - place.offset =
          blanks.length + (span.length + (u.region.start - (t.place.after span).offset)) := by
        rw [start, Location.after_offset, Location.after_offset]
        omega
      rw [Token.span, offset, List.drop_length_add_append, List.drop_length_add_append]
      exact ih u hu

/-- What belongs to no source is a blank. -/
theorem blank (h : Tiled place cs tokens) {i : Nat} (hc : cs[i]? = some c)
    (outside :
      ∀ t ∈ tokens, ¬(t.region.start ≤ place.offset + i ∧ place.offset + i < t.region.stop)) :
    isSpace c = true := by
  induction h generalizing i with
  | blanks blank => exact blank c (List.mem_of_getElem? hc)
  | @token place blanks span rest t tokens blank start width _ _ _ ih =>
    obtain ⟨own, others⟩ := List.forall_mem_cons.1 outside
    rw [region_of_first start width] at own
    by_cases before : i < blanks.length
    · rw [List.getElem?_append_left before] at hc
      exact blank c (List.mem_of_getElem? hc)
    · rw [List.getElem?_append_right (by omega),
        List.getElem?_append_right (by dsimp only at own; omega)] at hc
      refine ih hc ?_
      rw [start, Location.after_offset, Location.after_offset]
      have same : place.offset + blanks.length + span.length + (i - blanks.length - span.length) =
          place.offset + i := by
        dsimp only at own
        omega
      rwa [same]

end Tiled

def written (tokens : List Token) : List Char := [' '].intercalate (tokens.map source)

theorem written_cons_cons (t u : Token) (rest : List Token) :
    written (t :: u :: rest) = spelling t.kind t.text.toList ++ ' ' :: written (u :: rest) := by
  simp [written, source, List.intercalate]

/-- Tokens of a scan are read back, with a blank between neighbours. -/
theorem scanned_written (h : Lexed afterDot tokens) :
    scanned afterDot (written tokens) = .ok (tokens.map unplaced) := by
  induction tokens generalizing afterDot with
  | nil => exact scanned_nil afterDot
  | cons t rest ih =>
    obtain ⟨spelled, lexed⟩ := h
    cases rest with
    | nil =>
      have alone : written [t] = spelling t.kind t.text.toList ++ [] := by simp [written, source]
      have nothing : Apart [] := by simp [Apart]
      have whole : NoFraction [] := by simp [NoFraction]
      rw [alone, scanned_spelling spelled (fun _ => nothing) (fun _ _ => whole), scanned_nil]
      simp [unplaced]
    | cons u rest =>
      rw [written_cons_cons,
        scanned_spelling spelled (fun _ => apart_space _) (fun _ _ => noFraction_space _),
          scanned_space, ih lexed]
      simp [unplaced]

def saying (t : Token) : Kind × String := (t.kind, t.text)

/-- The sources of the tokens of a code are disjoint and in order and lie inside the code, whatever
lies outside of them is a blank, and each is what its token says; a token that is no string says its
source. Written out with one blank between neighbours, strings between double quotes, the tokens are
read back, wherever that is said to stand. -/
theorem ofCode_tiles (place : Location) (code : String) (tokens : List Token) (stop : Location)
    (h : ofCode place code = .ok (tokens, stop)) :
    (tokens.Pairwise fun t u => t.region.stop ≤ u.region.start) ∧
    (∀ t ∈ tokens, place.offset ≤ t.region.start ∧ t.region.start < t.region.stop ∧
      t.region.stop ≤ place.offset + code.toList.length) ∧
    (∀ i c, code.toList[i]? = some c →
      (∀ t ∈ tokens, ¬(t.region.start ≤ place.offset + i ∧ place.offset + i < t.region.stop)) →
      c = ' ' ∨ c = '\t' ∨ c = '\n' ∨ c = '\r') ∧
    (∀ t ∈ tokens, t.kind ≠ .string → t.span place code.toList = t.text.toList) ∧
    (∀ t ∈ tokens, t.kind = .string → ∃ mark body, IsMark mark ∧
      t.span place code.toList = mark :: (body ++ [mark]) ∧ Enclosed mark body t.text.toList) ∧
    stop = place.after code.toList ∧
    ∀ place', ∃ tokens' stop', ofCode place' (String.ofList (written tokens)) =
      .ok (tokens', stop') ∧
      tokens'.map saying = tokens.map saying := by
  have tiled := scan_tiled h
  refine ⟨tiled.apart, tiled.within, fun i c hc outside => ?_, fun t ht hk => ?_, fun t ht hk => ?_,
    ?_, fun place' => ?_⟩
  · simpa [isSpace, or_assoc] using tiled.blank hc outside
  · have source := tiled.source t ht
    rwa [SourceOf, if_neg hk] at source
  · have source := tiled.source t ht
    rwa [SourceOf, if_pos hk] at source
  · have cut := scan_cut false place code.toList
    rw [ofCode] at h
    rw [h] at cut
    exact cut.2
  · obtain ⟨tokens', stop', found, same⟩ := scanned_eq_ok place' (scanned_written (scan_lexed h))
    refine ⟨tokens', stop', by rw [ofCode, String.toList_ofList, found], ?_⟩
    have said : tokens'.map (saying ∘ unplaced) = tokens.map (saying ∘ unplaced) := by
      rw [← List.map_map, same, List.map_map]
    exact said

/-- Members named as a keyword is and indexed, and a string with its quote escaped. -/
theorem ofCode_tiles_members :
    ∃ tokens stop, ofCode ⟨4, 1, 5⟩ "a.end . 7== \t'it\\'s'" = .ok (tokens, stop) ∧
    tokens.map region = [⟨4, 5⟩, ⟨5, 6⟩, ⟨6, 9⟩, ⟨10, 11⟩, ⟨12, 13⟩, ⟨13, 15⟩, ⟨17, 24⟩] ∧
    String.ofList (written tokens) = "a . end . 7 == \"it's\"" ∧
    ∀ place', ∃ tokens' stop', ofCode place' (String.ofList (written tokens)) =
      .ok (tokens', stop') ∧
      tokens'.map saying = tokens.map saying := by
  have scanned : ofCode ⟨4, 1, 5⟩ "a.end . 7== \t'it\\'s'" =
      .ok ([⟨.identifier, "a", ⟨4, 1, 5⟩, 1⟩, ⟨.dot, ".", ⟨5, 1, 6⟩, 1⟩,
        ⟨.identifier, "end", ⟨6, 1, 7⟩, 3⟩, ⟨.dot, ".", ⟨10, 1, 11⟩, 1⟩,
        ⟨.integer, "7", ⟨12, 1, 13⟩, 1⟩, ⟨.operator .equal, "==", ⟨13, 1, 14⟩, 2⟩,
        ⟨.string, "it's", ⟨17, 1, 18⟩, 7⟩], ⟨24, 1, 25⟩) := by decide +kernel
  obtain ⟨-, -, -, -, -, -, again⟩ := ofCode_tiles _ _ _ _ scanned
  exact ⟨_, _, scanned, rfl, by decide, again⟩

end Stencil.Token
