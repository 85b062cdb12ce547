import Stencil.Proofs.Cache.Run
import Stencil.Proofs.Document.Append
import Stencil.Proofs.File.Utf8

/-! A template in a file beside the same text at hand. What is compiled is the text of the file with
one kind of line end; all else of the outcome is the same, with the path put to it. -/
namespace Stencil
open Outcome
variable {cs : List Char}

namespace File

/-- No carriage return is left where lines end alike. -/
theorem return_not_mem_unifyLines (cs : List Char) : '\r' ∉ unifyLines cs := by
  fun_induction unifyLines cs with
  | case1 rest ih | case2 rest _ ih => exact List.not_mem_cons_of_ne_of_not_mem (by decide) ih
  | case3 c rest _ other ih => exact List.not_mem_cons_of_ne_of_not_mem (Ne.symm other) ih
  | case4 => exact List.not_mem_nil

/-- Just the texts without a carriage return stay what they are. -/
theorem unifyLines_eq_self_iff : unifyLines cs = cs ↔ '\r' ∉ cs := by
  constructor
  · intro same
    rw [← same]
    exact return_not_mem_unifyLines cs
  · intro plain
    fun_induction unifyLines cs with
    | case1 rest ih | case2 rest _ ih => exact absurd List.mem_cons_self plain
    | case3 c rest _ other ih => rw [ih fun inside => plain (List.mem_cons_of_mem c inside)]
    | case4 => rfl

section Words
variable {word : List Char} (unbroken : '\n' ∉ word)
include unbroken

theorem eq_nil_of_prefix_break {rest : List Char} (h : word <+: '\n' :: rest) : word = [] := by
  obtain rfl | ⟨word, rfl, -⟩ := List.prefix_cons_iff.1 h
  · rfl
  · exact absurd List.mem_cons_self unbroken

theorem prefix_of_unifyLines (h : word <+: unifyLines cs) : word <+: cs := by
  fun_induction unifyLines cs generalizing word with
  | case1 | case2 =>
    rw [eq_nil_of_prefix_break unbroken h]
    exact List.nil_prefix
  | case3 c rest _ _ ih =>
    obtain rfl | ⟨word, rfl, behind⟩ := List.prefix_cons_iff.1 h
    · exact List.nil_prefix
    · exact List.cons_prefix_cons.2 ⟨rfl, ih (List.not_mem_of_not_mem_cons unbroken) behind⟩
  | case4 => exact h

/-- A word on one line that stands in the text with its new line ends stood there before. -/
theorem infix_of_unifyLines (h : word <:+: unifyLines cs) : word <:+: cs := by
  fun_induction unifyLines cs with
  | case1 rest ih =>
    obtain first | behind := List.infix_cons_iff.1 h
    · rw [eq_nil_of_prefix_break unbroken first]
      exact List.nil_infix
    · exact (ih behind).trans ((List.suffix_cons _ _).trans (List.suffix_cons _ _)).isInfix
  | case2 rest _ ih =>
    obtain first | behind := List.infix_cons_iff.1 h
    · rw [eq_nil_of_prefix_break unbroken first]
      exact List.nil_infix
    · exact (ih behind).trans (List.suffix_cons _ _).isInfix
  | case3 c rest _ _ ih =>
    obtain first | behind := List.infix_cons_iff.1 h
    · obtain rfl | ⟨word, rfl, behind⟩ := List.prefix_cons_iff.1 first
      · exact List.nil_infix
      · have unbroken' := List.not_mem_of_not_mem_cons unbroken
        exact (List.cons_prefix_cons.2 ⟨rfl, prefix_of_unifyLines unbroken' behind⟩).isInfix
    · exact (ih behind).trans (List.suffix_cons _ _).isInfix
  | case4 => exact h

end Words

def bytesOf (text : String) : List UInt8 := text.toUTF8.data.toList

def unified (text : String) : String := String.ofList (unifyLines text.toList)

theorem unified_eq_self_iff {text : String} : unified text = text ↔ '\r' ∉ text.toList := by
  rw [unified, ← unifyLines_eq_self_iff, ← String.toList_inj, String.toList_ofList]

theorem bytesOf_eq (text : String) : bytesOf text = text.toList.flatMap String.utf8EncodeChar := by
  have whole : text.toUTF8 = text.toList.utf8Encode := String.utf8Encode_toList.symm
  rw [bytesOf, whole, List.utf8Encode, List.toList_data_toByteArray]

theorem decode_bytesOf (text : String) : Utf8.decode (bytesOf text) = .ok text.toList :=
  Utf8.decode_eq_ok_iff.2 (bytesOf_eq text)

/-- Octets are those of a text, or there is something wrong with one of them. -/
theorem textOf_cases (bytes : List UInt8) :
    (∃ text, bytesOf text = bytes ∧ textOf bytes = .ok (unified text)) ∨
      (¬ ∃ text, bytesOf text = bytes) ∧ ∃ fault, textOf bytes = .error (.notText fault) := by
  unfold textOf
  cases read : Utf8.decode bytes with
  | ok cs =>
    have same : bytesOf (String.ofList cs) = bytes := by
      rw [bytesOf_eq, String.toList_ofList, Utf8.decode_eq_ok_iff.1 read]
    exact .inl ⟨String.ofList cs, same, by rw [unified, String.toList_ofList]⟩
  | error fault =>
    refine .inr ⟨?_, fault, rfl⟩
    rintro ⟨text, rfl⟩
    rw [decode_bytesOf] at read
    cases read

theorem textOf_bytesOf (text : String) : textOf (bytesOf text) = .ok (unified text) := by
  rw [textOf, decode_bytesOf]
  rfl

end File

def LoadFault.inFile (path : Path) : LoadFault → LoadFault
  | .malformed fault _ => .malformed fault (some path)
  | fault => fault

namespace Template

def inFile (path : Path) (t : Template) : Template := { t with origin := some path }

variable {files : File.Tree} {here path : Path} {written : String} {bytes : List UInt8}
    {text : String}

section Stored
variable (meant : files.resolve ⟨here, ""⟩ written = .ok path)
    (stored : files.bytes path = .ok bytes)
include meant stored

theorem load_of_text (h : File.textOf bytes = .ok text) :
    load files here written = bimap (LoadFault.inFile path) (inFile path) (ofSource text) := by
  have read : files.read path = .ok text := by
    rw [File.Tree.read, stored]
    exact h
  have found : sourceOf files here written = .ok (path, text) := by
    unfold sourceOf
    rw [meant]
    dsimp only
    rw [read]
  unfold load ofSource
  rw [found]
  dsimp only
  cases Document.parse text <;> rfl

theorem load_of_no_text {reason : File.ReadFault} (h : File.textOf bytes = .error reason) :
    load files here written = .error (.unreadable path reason) := by
  have read : files.read path = .error reason := by
    rw [File.Tree.read, stored]
    exact h
  unfold load sourceOf
  rw [meant]
  dsimp only
  rw [read]

end Stored

/-- A text without an opening delimiter is a template that is rendered to this text. -/
theorem ofSource_literal (plain : ¬ ['<', '%'] <:+: text.toList) :
    ∃ t, ofSource text = .ok t ∧
      ∀ (g : Globals) (data : Option Host) (named : List (String × Host)),
      t.render g data named = (Context.build data named).map fun _ => text := by
  obtain ⟨d, parsed, rendered⟩ := Document.parse_literal plain
  refine ⟨⟨d, none⟩, by rw [ofSource, parsed], fun g data named => ?_⟩
  unfold render
  cases Context.build data named with
  | error fault => rfl
  | ok scope => exact rendered g scope

theorem load_literal (meant : files.resolve ⟨here, ""⟩ written = .ok path)
    (stored : files.bytes path = .ok bytes) (h : File.textOf bytes = .ok text)
    (plain : ¬ ['<', '%'] <:+: text.toList) :
    ∃ t, load files here written = .ok t ∧
      ∀ (g : Globals) (data : Option Host) (named : List (String × Host)),
        t.render g data named = (Context.build data named).map fun _ => text := by
  obtain ⟨t, compiled, rendered⟩ := ofSource_literal plain
  refine ⟨t.inFile path, ?_, rendered⟩
  rw [load_of_text meant stored h, compiled]
  rfl

theorem load_congr {here' : Path} {other : String}
    (same : files.resolve ⟨here', ""⟩ other = files.resolve ⟨here, ""⟩ written) :
    load files here' other = load files here written := by
  simp only [load, sourceOf, same]

/-- A file that holds a text compiles to what the text does when its lines end in line feeds, be it
a template or a fault with its place, the path apart; just without a carriage return that is what
the text itself compiles to. Without an opening delimiter the text with these line ends is what is
rendered. A file that holds no text is unreadable. A cache answers the same under each key that
leads to the file, if it has nothing stored for it. -/
theorem load_outcomes (meant : files.resolve ⟨here, ""⟩ written = .ok path)
    (stored : files.bytes path = .ok bytes) :
    (∀ text : String, File.bytesOf text = bytes →
      load files here written =
          bimap (LoadFault.inFile path) (inFile path) (ofSource (File.unified text)) ∧
        (File.unified text = text ↔ '\r' ∉ text.toList) ∧
        (¬ ['<', '%'] <:+: text.toList →
          ∃ t, load files here written = .ok t ∧
            ∀ (g : Globals) (data : Option Host) (named : List (String × Host)),
              t.render g data named = (Context.build data named).map fun _ => File.unified text)) ∧
      ((¬ ∃ text : String, File.bytesOf text = bytes) →
        ∃ fault, load files here written = .error (.unreadable path (.notText fault))) ∧
      ∀ (c : Cache) (other : String) (key : Path), c.resolve files other = .ok key →
        files.resolve ⟨.top, ""⟩ key.text = .ok path → c.development = true ∨ c.stored? key = none →
        (c.get files (compile files) other).1 = load files here written := by
  refine ⟨?_, fun none => ?_, fun c other key led same fresh => ?_⟩
  · rintro text rfl
    have read := File.textOf_bytesOf text
    refine ⟨load_of_text meant stored read, File.unified_eq_self_iff, fun plain => ?_⟩
    refine load_literal meant stored read fun opened => ?_
    rw [File.unified, String.toList_ofList] at opened
    exact plain (File.infix_of_unifyLines (by decide) opened)
  · obtain ⟨text, same, -⟩ | ⟨-, fault, broken⟩ := File.textOf_cases bytes
    · exact absurd ⟨text, same⟩ none
    · exact ⟨fault, load_of_no_text meant stored broken⟩
  · have again : compile files key = load files here written := load_congr (same.trans meant.symm)
    rw [Cache.get_of_resolve led, ← again]
    cases mode : c.development with
    | true => exact Cache.fetch_development mode key
    | false =>
      have absent : c.stored? key = none := fresh.resolve_left (by simp [mode])
      rw [Cache.fetch_fst mode, Cache.find, absent]

/-- Two lines that end in a carriage return and a line feed, an unclosed tag in the second one. -/
theorem load_outcomes_unclosed :
    let text := "a\r\n<%= b"
    let files := File.Tree.empty.put ⟨["a"]⟩ (.file (File.bytesOf text))
    load files .top "a" = .error (.malformed (.at .unclosedTag ⟨2, 2, 1⟩) (some ⟨["a"]⟩)) ∧
      ofSource text = .error (.malformed (.at .unclosedTag ⟨3, 2, 1⟩) none) := by
  intro text files
  have meant : files.resolve ⟨.top, ""⟩ "a" = .ok ⟨["a"]⟩ := by rfl
  have stored : files.bytes ⟨["a"]⟩ = .ok (File.bytesOf text) := by rfl
  have loaded := ((load_outcomes meant stored).1 text rfl).1
  have unified : File.unified text = "a\n<%= b" := by cbv
  have found : ofSource "a\n<%= b" = .error (.malformed (.at .unclosedTag ⟨2, 2, 1⟩) none) := by cbv
  refine ⟨?_, by cbv⟩
  rw [loaded, unified, found]
  rfl

/-- A carriage return of a file is lost, although the same text at hand keeps it and the template
has no tag. -/
theorem load_return :
    let text := "a\r\nb"
    let files := File.Tree.empty.put ⟨["a"]⟩ (.file (File.bytesOf text))
    load files .top "a" ≠ bimap (LoadFault.inFile ⟨["a"]⟩) (inFile ⟨["a"]⟩) (ofSource text) ∧
      (∃ t, load files .top "a" = .ok t ∧ ∀ g : Globals, t.render g none [] = .ok "a\nb") ∧
      ∃ t, ofSource text = .ok t ∧ ∀ g : Globals, t.render g none [] = .ok text := by
  intro text files
  have meant : files.resolve ⟨.top, ""⟩ "a" = .ok ⟨["a"]⟩ := by rfl
  have stored : files.bytes ⟨["a"]⟩ = .ok (File.bytesOf text) := by rfl
  have loaded : load files .top "a" = .ok ⟨⟨[.text 0 "a\nb"]⟩, some ⟨["a"]⟩⟩ := by
    rw [load_of_text meant stored (by cbv : File.textOf (File.bytesOf text) = .ok "a\nb")]
    cbv
  have compiled : ofSource text = .ok ⟨⟨[.text 0 text]⟩, none⟩ := by cbv
  refine ⟨?_, ⟨_, loaded, fun _ => by cbv⟩, _, compiled, fun _ => by cbv⟩
  rw [loaded, compiled]
  simp [text, inFile]

end Template
end Stencil
