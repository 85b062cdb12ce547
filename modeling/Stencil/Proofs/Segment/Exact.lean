import Stencil.Proofs.Part.Scan

/-! Segments lose nothing, and a template has one row of them at most. Main statement: the segments
of a text are the one orderly row whose contents are that text; where there is none, a tag is left
open. -/
namespace Stencil.Segment

def Orderly : List Segment → Prop
  | [⟨.stop, s, _⟩] => s = []
  | ⟨.text, s, _⟩ :: rest => Part.Literal s ∧ rest.head?.map kind ≠ some .text ∧ Orderly rest
  | ⟨.opener kind, o, _⟩ :: ⟨.code kind', code, _⟩ :: ⟨.closer, c, _⟩ :: rest =>
    o = kind.opener ∧ kind' = kind ∧ Part.Code kind code ∧ c = Part.closer ∧ Orderly rest
  | _ => False

def Placed : Location → List Segment → Prop
  | _, [] => True
  | l, s :: rest => s.place = l ∧ Placed (l.after s.content) rest

/-- A tag that no delimiter outside quotes closes, behind a row of whole parts. -/
structure LeftOpen (before : List Segment) (kind : TagKind) (behind : List Char) : Prop where
  orderly : Orderly (before ++ [⟨.stop, [], .start⟩])
  begins : Part.Begins kind behind
  guarded : Quotes.Guarded .outside behind

@[simp] theorem contents_nil : contents [] = [] := rfl

@[simp] theorem contents_cons (s : Segment) (rest : List Segment) :
    contents (s :: rest) = s.content ++ contents rest := rfl

theorem contents_append (u v : List Segment) :
    contents (u ++ v) = contents u ++ contents v := List.flatMap_append

theorem contents_flatMap_ofPart (parts : List Part) :
    contents (parts.flatMap ofPart) = Part.sources parts := by
  induction parts with
  | nil => rfl
  | cons p parts ih =>
    rw [List.flatMap_cons, contents_append, ih, Part.sources_cons]
    cases p <;> simp [ofPart, Part.source]

theorem placed_append (l : Location) (u v : List Segment) :
    Placed l (u ++ v) ↔ Placed l u ∧ Placed (l.after (contents u)) v := by
  induction u generalizing l with
  | nil => simp [Placed]
  | cons s u ih => simp [Placed, ih, Location.after_append, and_assoc]

theorem placed_iff (l : Location) (segments : List Segment) :
    Placed l segments ↔
      ∀ before s after, segments = before ++ s :: after → s.place = l.after (contents before) := by
  constructor
  · intro h before s after same
    subst same
    exact ((placed_append ..).1 h).2.1
  · intro h
    induction segments generalizing l with
    | nil => trivial
    | cons s rest ih =>
      refine ⟨h [] s rest rfl, ih _ fun before t after heq => ?_⟩
      rw [h (s :: before) t after (by rw [heq]; rfl), contents_cons, Location.after_append]

def ofRow (l : Location) (parts : List Part) : List Segment :=
  parts.flatMap ofPart ++ [⟨.stop, [], l.after (Part.sources parts)⟩]

theorem contents_ofRow (l : Location) (parts : List Part) :
    contents (ofRow l parts) = Part.sources parts := by
  simp [ofRow, contents_append, contents_flatMap_ofPart]

/-- What a row of parts may be followed by, seen from its last text. -/
theorem head_kind_ofPart (parts : List Part) (tail : List Segment)
    (ht : tail.head?.map kind ≠ some .text) (h : ∀ place s, parts.head? ≠ some (.text place s)) :
    (parts.flatMap ofPart ++ tail).head?.map kind ≠ some .text := by
  cases parts with
  | nil => exact ht
  | cons p parts =>
    cases p with
    | text place s => exact absurd rfl (h place s)
    | tag kind place code => simp [ofPart]

theorem orderly_flatMap_ofPart {parts : List Part} (h : Part.Row parts) (place : Location) :
    Orderly (parts.flatMap ofPart ++ [⟨.stop, [], place⟩]) := by
  induction parts with
  | nil => rfl
  | cons p parts ih =>
    cases p with
    | text l s =>
      obtain ⟨literal, apart, row⟩ := h
      refine ⟨literal, head_kind_ofPart parts _ (by simp) apart, ih row⟩
    | tag kind l code =>
      obtain ⟨hcode, row⟩ := h
      exact ⟨rfl, rfl, hcode, rfl, ih row⟩

theorem placed_ofRow {l : Location} {parts : List Part} (h : Part.Placed l parts) :
    Placed l (ofRow l parts) := by
  rw [ofRow, placed_append, contents_flatMap_ofPart]
  refine ⟨?_, rfl, trivial⟩
  induction parts generalizing l with
  | nil => trivial
  | cons p parts ih =>
    obtain ⟨hplace, placed⟩ := h
    rw [List.flatMap_cons, placed_append]
    have own : contents (ofPart p) = p.source := by cases p <;> simp [ofPart, Part.source]
    rw [own]
    refine ⟨?_, ih placed⟩
    subst hplace
    cases p with
    | text place s => exact ⟨rfl, trivial⟩
    | tag kind place code => exact ⟨rfl, rfl, rfl, trivial⟩

/-- Every orderly row in its places comes from a row of parts. -/
theorem exists_parts {l : Location} {segments : List Segment} (h : Orderly segments)
    (hp : Placed l segments) :
    ∃ parts, Part.Row parts ∧ Part.Placed l parts ∧ segments = ofRow l parts := by
  fun_induction Orderly segments generalizing l with
  | case1 s place =>
    obtain ⟨rfl, -⟩ : place = l ∧ _ := hp
    subst h
    exact ⟨[], trivial, trivial, rfl⟩
  | case2 s place rest ih =>
    obtain ⟨literal, apart, orderly⟩ := h
    obtain ⟨rfl, placed⟩ : place = l ∧ Placed (l.after s) rest := hp
    obtain ⟨parts, row, placed', rfl⟩ := ih orderly placed
    refine ⟨.text place (String.ofList s) :: parts, ⟨by simpa using literal, ?_, row⟩,
      ⟨rfl, ?_⟩, ?_⟩
    · intro place' s' hhead
      cases parts with
      | nil => simp at hhead
      | cons p parts =>
        obtain rfl : p = .text place' s' := by simpa using hhead
        exact apart rfl
    · simpa [Part.source] using placed'
    · simp [ofRow, ofPart, Part.source, Location.after_append]
  | case3 kind o place kind' code place' c place'' rest ih =>
    obtain ⟨rfl, rfl, hcode, rfl, orderly⟩ := h
    obtain ⟨rfl, rfl, rfl, placed⟩ : place = l ∧ place' = l.after _ ∧
        place'' = (l.after _).after code ∧
      Placed (((l.after _).after code).after Part.closer) rest := hp
    obtain ⟨parts, row, placed', rfl⟩ := ih orderly placed
    refine ⟨.tag kind' place (String.ofList code) :: parts, ⟨by simpa using hcode, row⟩,
      ⟨rfl, ?_⟩, ?_⟩
    · simpa [Part.source, Location.after_append] using placed'
    · simp [ofRow, ofPart, Part.source, Part.codePlace, Part.closePlace, Location.after_append]
  | case4 => exact h.elim

def placeFrom (l : Location) : List Segment → List Segment
  | [] => []
  | s :: rest => { s with place := l } :: placeFrom (l.after s.content) rest

theorem placed_placeFrom (l : Location) (segments : List Segment) :
    Placed l (placeFrom l segments) := by
  induction segments generalizing l with
  | nil => trivial
  | cons s rest ih => exact ⟨rfl, ih _⟩

theorem contents_placeFrom (l : Location) (segments : List Segment) :
    contents (placeFrom l segments) = contents segments := by
  induction segments generalizing l with
  | nil => rfl
  | cons s rest ih => simp [placeFrom, ih]

theorem orderly_placeFrom {l : Location} {segments : List Segment} (h : Orderly segments) :
    Orderly (placeFrom l segments) := by
  fun_induction Orderly segments generalizing l with
  | case1 s place => exact h
  | case2 s place rest ih =>
    refine ⟨h.1, ?_, ih h.2.2⟩
    cases rest with
    | nil => simp [placeFrom]
    | cons s rest => exact h.2.1
  | case3 kind o place kind' code place' c place'' rest ih =>
    exact ⟨h.1, h.2.1, h.2.2.1, h.2.2.2.1, ih h.2.2.2.2⟩
  | case4 => exact h.elim

theorem ofSource_eq (source : String) :
    ofSource source = (Part.scan .start source.toList).map fun parts =>
      parts.flatMap ofPart ++ [⟨.stop, [], Location.start.after source.toList⟩] := by
  rw [ofSource, Part.ofSource]
  cases Part.scan .start source.toList <;> rfl

theorem ofSource_eq_ok_iff {source : String} {segments : List Segment} :
    ofSource source = .ok segments ↔
      Orderly segments ∧ Placed .start segments ∧ contents segments = source.toList := by
  rw [ofSource_eq]
  constructor
  · intro h
    cases hscan : Part.scan .start source.toList with
    | error fault => simp [hscan, Except.map] at h
    | ok parts =>
      obtain ⟨row, placed, hs⟩ := Part.scan_eq_ok_iff.1 hscan
      obtain rfl : ofRow .start parts = segments := by simpa [hscan, Except.map, ofRow, hs] using h
      exact ⟨orderly_flatMap_ofPart row _, placed_ofRow placed, by rw [contents_ofRow, hs]⟩
  · intro given
    obtain ⟨orderly, placed, hs⟩ := given
    obtain ⟨parts, row, placed', rfl⟩ := exists_parts orderly placed
    rw [contents_ofRow] at hs
    rw [Part.scan_eq_ok_iff.2 ⟨row, placed', hs⟩, ← hs]
    rfl

theorem ofSource_eq_error_iff {source : String} {fault : ParseFault} :
    ofSource source = .error fault ↔ ∃ before kind behind, LeftOpen before kind behind ∧
      contents before ++ kind.opener ++ behind = source.toList ∧
      fault = .at .unclosedTag (Location.start.after (contents before)) := by
  have hmap : ofSource source = .error fault ↔ Part.scan .start source.toList = .error fault := by
    rw [ofSource_eq]
    cases Part.scan .start source.toList <;> simp [Except.map]
  rw [hmap, Part.scan_eq_error_iff]
  constructor
  · intro given
    obtain ⟨parts, kind, behind, row, -, begins, guarded, hs, rfl⟩ := given
    refine ⟨parts.flatMap ofPart, kind, behind,
      ⟨orderly_flatMap_ofPart row _, begins, guarded⟩, ?_, ?_⟩
    · rw [contents_flatMap_ofPart, hs, List.append_assoc]
    · rw [contents_flatMap_ofPart]
  · intro given
    obtain ⟨before, kind, behind, ⟨orderly, begins, guarded⟩, hs, rfl⟩ := given
    obtain ⟨parts, row, placed, heq⟩ :=
      exists_parts (orderly_placeFrom orderly) (placed_placeFrom .start _)
    have hc : contents before = Part.sources parts := by
      have := congrArg contents heq
      simpa [contents_placeFrom, contents_append, contents_ofRow] using this
    exact ⟨parts, kind, behind, row, placed, begins, guarded,
      by rw [← hs, hc, List.append_assoc], by rw [hc]⟩

theorem offset_of_placed {segments before after : List Segment} {s : Segment}
    (h : Placed .start segments) (heq : segments = before ++ s :: after) :
    s.place.offset = (contents before).length := by
  rw [(placed_iff ..).1 h before s after heq, Location.after_offset]
  simp [Location.start]

/-- Segments are lossless and exact. A text has the segments of an orderly row in its places that
has the text as its contents, and any orderly row with these contents is that one up to places. If
there is none, a tag is left open, and the fault is at its opener. -/
theorem ofSource_exact (source : String) :
    (∀ segments, ofSource source = .ok segments ↔
      Orderly segments ∧ contents segments = source.toList ∧
      ∀ before s after, segments = before ++ s :: after →
        s.place = Location.start.after (contents before)) ∧
    (∀ segments, ofSource source = .ok segments →
      ∀ before s after, segments = before ++ s :: after →
        s.place.offset = (contents before).length) ∧
    (∀ segments, Orderly segments → contents segments = source.toList →
      ofSource source = .ok (placeFrom .start segments)) ∧
    ((∃ fault, ofSource source = .error fault) ↔
      ¬ ∃ segments, Orderly segments ∧ contents segments = source.toList) ∧
    (∀ fault, ofSource source = .error fault ↔ ∃ before kind behind, LeftOpen before kind behind ∧
      contents before ++ kind.opener ++ behind = source.toList ∧
      fault = .at .unclosedTag (Location.start.after (contents before))) ∧
    (∀ reason place, ofSource source = .error (.at reason place) → reason.message = "Unclosed tag" ∧
      ∃ before kind behind, LeftOpen before kind behind ∧
        contents before ++ kind.opener ++ behind = source.toList ∧
        place.offset = (contents before).length) := by
  have converse : ∀ segments, Orderly segments → contents segments = source.toList →
      ofSource source = .ok (placeFrom .start segments) := by
    intro segments orderly hs
    rw [ofSource_eq_ok_iff, contents_placeFrom]
    exact ⟨orderly_placeFrom orderly, placed_placeFrom .start segments, hs⟩
  refine ⟨fun segments => ?_, ?_, converse, ?_, fun fault => ofSource_eq_error_iff, ?_⟩
  · rw [ofSource_eq_ok_iff, placed_iff]
    tauto
  · intro segments h before s after heq
    exact offset_of_placed (ofSource_eq_ok_iff.1 h).2.1 heq
  · constructor
    · intro failed whole
      obtain ⟨fault, h⟩ := failed
      obtain ⟨segments, orderly, hs⟩ := whole
      rw [converse segments orderly hs] at h
      cases h
    · intro h
      cases hsource : ofSource source with
      | error fault => exact ⟨fault, rfl⟩
      | ok segments =>
        obtain ⟨orderly, -, hs⟩ := ofSource_eq_ok_iff.1 hsource
        exact absurd ⟨segments, orderly, hs⟩ h
  · intro reason place h
    obtain ⟨before, kind, behind, open_, hs, heq⟩ := ofSource_eq_error_iff.1 h
    obtain ⟨rfl, rfl⟩ := ParseFault.at.inj heq
    refine ⟨rfl, before, kind, behind, open_, hs, ?_⟩
    rw [Location.after_offset]
    simp [Location.start]

end Stencil.Segment
