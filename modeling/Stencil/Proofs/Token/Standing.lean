import Stencil.Proofs.Segment.Strings

/-! Where tokens stand. Each one was cut off the code at its place, and what is written there is the
token, also when the code is looked at in the template around it: nothing goes on over the end of a
tag. -/
namespace Stencil

namespace Token
open Outcome
variable {afterDot : Bool} {place stop : Location} {cs rest more : List Char} {c : Char} {t : Token}
    {l : Lexeme}

theorem stringBody_width {quote : Char} {text : List Char} {width : Nat}
    (h : stringBody quote cs = some (text, width)) : width ≤ cs.length := by
  fun_induction stringBody quote cs generalizing text width with
  | case1 => cases h
  | case2 e rest ih =>
    obtain ⟨⟨text', width'⟩, body, same⟩ := Option.map_eq_some_iff.1 h
    cases same
    have short := ih body
    simp only [List.length_cons]
    omega
  | case3 => cases h; simp
  | case4 c rest _ _ ih =>
    obtain ⟨⟨text', width'⟩, body, same⟩ := Option.map_eq_some_iff.1 h
    cases same
    have short := ih body
    simp only [List.length_cons]
    omega

/-- A lexeme takes some characters, and none behind the end of the code. What is no string is taken
as it stands. -/
theorem lexeme_taken (h : lexeme afterDot c rest = .ok l) :
    0 < l.width ∧ l.width ≤ (c :: rest).length ∧ (l.kind ≠ .string → l.text <+: c :: rest) := by
  by_cases hc : c = '"' ∨ c = '\''
  · rw [lexeme_quote hc] at h
    split at h
    · rename_i text width body
      cases h
      exact ⟨width.succ_pos, Nat.succ_le_succ (stringBody_width body),
        fun other => absurd rfl other⟩
    · cases h
  · have plain := lexeme_unquoted afterDot rest hc
    rw [h] at plain
    obtain ⟨kind, inside, width⟩ := plain
    rw [width]
    exact ⟨List.length_pos_iff.2 ((lexeme_spelled h).ne_nil kind), inside.length_le,
      fun _ => inside⟩

def Cut (place : Location) (cs : List Char) (t : Token) : Prop :=
  ∃ before c rest afterDot l, cs = before ++ c :: rest ∧ lexeme afterDot c rest = .ok l ∧
    t = ⟨l.kind, String.ofList l.text, place.after before, l.width⟩

theorem Cut.append_left {u : List Char} (h : Cut (place.after u) cs t) : Cut place (u ++ cs) t := by
  obtain ⟨before, c, rest, afterDot, l, rfl, found, rfl⟩ := h
  exact ⟨u ++ before, c, rest, afterDot, l, (List.append_assoc ..).symm,
    found, by rw [Location.after_append]⟩

/-- A lexeme and what is left of the code behind it. -/
theorem take_append_drop_lexeme (h : lexeme afterDot c rest = .ok l) :
    (c :: rest).take l.width ++ rest.drop (l.width - 1) = c :: rest := by
  have behind : (c :: rest).drop l.width = rest.drop (l.width - 1) := by
    rw [← Nat.sub_one_add_one (lexeme_taken h).1.ne', List.drop_succ_cons, Nat.add_sub_cancel]
  rw [← behind, List.take_append_drop]

/-- What a scan gets to: tokens cut off the code, and its end, or a fault at some place on the
way. -/
theorem scan_cut (afterDot : Bool) (place : Location) (cs : List Char) :
    Meets (fun found => (∀ t ∈ found.1, Cut place cs t) ∧ found.2 = place.after cs)
      (fun fault => ∃ reason before, before <+: cs ∧ fault = .at reason (place.after before))
      (scan afterDot place cs) := by
  fun_induction scan afterDot place cs with
  | case1 afterDot place => exact ⟨fun t ht => absurd ht List.not_mem_nil, rfl⟩
  | case2 afterDot place c rest space ih =>
    refine ih.imp (fun found met => ⟨fun t ht => ?_, met.2⟩) fun fault met => ?_
    · exact Cut.append_left (u := [c]) (met.1 t ht)
    · obtain ⟨reason, before, inside, rfl⟩ := met
      exact ⟨reason, c :: before, List.cons_prefix_cons.2 ⟨rfl, inside⟩, rfl⟩
  | case3 afterDot place c rest space reason => exact ⟨reason, [], List.nil_prefix, rfl⟩
  | case4 afterDot place c rest space l found fault failed ih =>
    rw [failed] at ih
    obtain ⟨reason, before, inside, rfl⟩ := ih
    refine ⟨reason, (c :: rest).take l.width ++ before, ?_, by rw [Location.after_append]⟩
    conv_rhs => rw [← take_append_drop_lexeme found]
    exact (List.prefix_append_right_inj _).2 inside
  | case5 afterDot place c rest space l found tokens stop behind ih =>
    rw [behind] at ih
    obtain ⟨later, ending⟩ := ih
    rw [meets_ok]
    refine ⟨List.forall_mem_cons.2 ⟨⟨[], c, rest, afterDot, l, rfl, found, rfl⟩, fun t ht => ?_⟩,
      ?_⟩
    · rw [← take_append_drop_lexeme found]
      exact (later t ht).append_left
    · dsimp only at ending ⊢
      rw [ending, ← Location.after_append, take_append_drop_lexeme found]

/-! What is written where a token stands. -/

def leadingName (here : List Char) : List Char := here.takeWhile isNamePart

def leadingDigits (here : List Char) : List Char := here.takeWhile Text.isDigit

def leadingFraction (here : List Char) : List Char :=
  leadingDigits here ++ '.' :: leadingDigits (here.drop ((leadingDigits here).length + 1))

/-- The text starts as a token of this kind that says this. Numbers and names go as far as they
can. -/
def Opens (here : List Char) (text : List Char) : Kind → Prop
  | .integer => leadingDigits here = text
  | .float => leadingFraction here = text ∧ text <+: here
  | .string => ∃ quote rest, here = quote :: rest ∧ (quote = '"' ∨ quote = '\'')
  | .identifier | .keyword _ => leadingName here = text
  | _ => text <+: here

theorem takeWhile_append_stop {p : Char → Bool} {d : Char} (hd : p d = false)
    (cs more : List Char) :
    (cs ++ d :: more).takeWhile p = cs.takeWhile p := by
  induction cs with
  | nil => exact List.takeWhile_cons_of_neg (by simp [hd])
  | cons c cs ih => rw [List.cons_append, List.takeWhile_cons, List.takeWhile_cons, ih]

theorem leadingDigits_append (cs more : List Char) :
    leadingDigits (cs ++ '%' :: more) = leadingDigits cs :=
  takeWhile_append_stop (by decide) cs more

/-- A number is all digits at the start, and the fraction behind them if there is one. -/
theorem number_eq (afterDot : Bool) (cs : List Char) :
    (∃ width, number afterDot cs = ⟨.integer, leadingDigits cs, width⟩) ∨
      ∃ rest width, cs = leadingDigits cs ++ '.' :: rest ∧
        number afterDot cs = ⟨.float, leadingDigits cs ++ '.' :: leadingDigits rest, width⟩ := by
  unfold number
  split
  · rename_i d rest heq
    split
    · refine .inr ⟨d :: rest, _, ?_, rfl⟩
      rw [← heq, leadingDigits, List.takeWhile_append_dropWhile]
    · exact .inl ⟨_, rfl⟩
  · exact .inl ⟨_, rfl⟩

theorem number_opens (afterDot : Bool) (cs more : List Char) :
    Opens (cs ++ '%' :: more) (number afterDot cs).text (number afterDot cs).kind := by
  have inside := (number_isPrefix afterDot cs).1.trans (List.prefix_append cs ('%' :: more))
  obtain ⟨width, heq⟩ | ⟨rest, width, hcs, heq⟩ := number_eq afterDot cs
  · rw [heq]
    exact leadingDigits_append cs more
  · rw [heq] at inside ⊢
    refine ⟨?_, inside⟩
    -- the fraction is read from behind the dot, where the code goes on up to the end of the tag
    have behind : (cs ++ '%' :: more).drop ((leadingDigits cs).length + 1) =
        rest ++ '%' :: more := by
      generalize leadingDigits cs = whole at hcs
      rw [hcs, List.append_assoc, ← List.drop_drop, List.drop_left, List.cons_append, List.drop_one,
        List.tail_cons]
    rw [leadingFraction, leadingDigits_append, behind, leadingDigits_append]

/-- Where a lexeme is cut off a code, its source stands there in front of the end of the tag. -/
theorem lexeme_opens (h : lexeme afterDot c rest = .ok l) (more : List Char) :
    Opens (c :: rest ++ '%' :: more) l.text l.kind := by
  unfold lexeme at h
  split at h
  · rename_i kind text found
    cases h
    have inside := (symbol?_isPrefix found).trans (List.prefix_append (c :: rest) ('%' :: more))
    unfold symbol? at found
    split at found <;> cases found <;> exact inside
  · split at h
    · rename_i quote
      split at h
      · cases h
        exact ⟨c, _, rfl, quote⟩
      · cases h
    · split at h
      · cases h
        exact number_opens afterDot (c :: rest) more
      · split at h
        · cases h
          have whole :=
            takeWhile_append_stop (p := isNamePart) (d := '%') (by decide) (c :: rest) more
          unfold name
          dsimp only
          split <;> exact whole
        · cases h

/-- A token that says something else than a string is written where it stands. -/
theorem Opens.isPrefix {here text : List Char} {kind : Kind} (h : Opens here text kind)
    (hk : kind ≠ .string) :
    text <+: here := by
  unfold Opens at h
  split at h
  · rw [← h]
    exact List.takeWhile_prefix _
  · exact h.2
  · exact absurd rfl hk
  · rw [← h]
    exact List.takeWhile_prefix _
  · rw [← h]
    exact List.takeWhile_prefix _
  · exact h

structure Stands (text : List Char) (start stop : Nat) (t : Token) : Prop where
  spelled : ∃ afterDot, Spelled afterDot t.kind t.text.toList
  opens : Opens (text.drop t.place.offset) t.text.toList t.kind
  behind : start ≤ t.place.offset
  within : t.kind ≠ .string → t.place.offset + t.text.toList.length ≤ stop

/-- A token of a code that stands in a template stands there too, inside the tag. -/
theorem Cut.stands {front : List Char} (h : Cut (Location.start.after front) cs t)
    (more : List Char) :
    t.Stands (front ++ cs ++ '%' :: more) front.length (front.length + cs.length) := by
  obtain ⟨before, c, rest, afterDot, l, rfl, found, rfl⟩ := h
  have offset : ((Location.start.after front).after before).offset = (front ++ before).length := by
    rw [← Location.after_append, Location.after_offset, Location.start, Nat.zero_add]
  constructor
  · exact ⟨afterDot, by rw [String.toList_ofList]; exact lexeme_spelled found⟩
  · -- the text in front goes up to the token, so that what is left starts with its lexeme
    dsimp only
    rw [offset, ← List.append_assoc, List.append_assoc, List.drop_left, String.toList_ofList]
    exact lexeme_opens found more
  · dsimp only
    rw [offset, List.length_append]
    exact Nat.le_add_right _ _
  · intro hk
    obtain ⟨-, -, inside⟩ := lexeme_taken found
    have short := (inside hk).length_le
    dsimp only
    rw [offset, String.toList_ofList, List.length_append, List.length_append]
    omega

theorem Stands.mono {text : List Char} {start start' stop stop' : Nat}
    (h : t.Stands text start stop) (hstart : start' ≤ start) (hstop : stop ≤ stop') :
    t.Stands text start' stop' :=
  ⟨h.spelled, h.opens, hstart.trans h.behind, fun hk => (h.within hk).trans hstop⟩

end Token
end Stencil
