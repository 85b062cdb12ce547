import Mathlib
import Stencil.Proofs.Record.Revealed

/-! Relations that a record does not include are hidden from templates, and so are all relations of
what is reached through an included one. -/
namespace Stencil

def Veil.relations : Veil :=
  ⟨fun _ _ _ _ => false, fun _ => false, fun included name => !included.contains name⟩

theorem Veil.unread_relations : Veil.relations.Unread where
  own _ _ _ _ _ := rfl
  visible _ _ _ _ _ := rfl
  computed _ := rfl
  included _ _ listed := congrArg not listed

mutual

/-- Equality does not look at relations. -/
theorem Host.same_veiled (x y : Host) :
    (x.veiled .relations).same (y.veiled .relations) = x.same y := by
  cases x with
  | list xs =>
    cases y with
    | list ys => exact Host.sameAll_veiled xs ys
    | _ => rfl
  | tuple xs =>
    cases y with
    | tuple ys => exact Host.sameAll_veiled xs ys
    | pair c d => exact Host.sameAll_veiled xs [c, d]
    | _ => rfl
  | pair a b =>
    cases y with
    | pair c d => exact congrArg₂ and (Host.same_veiled a c) (Host.same_veiled b d)
    | tuple ys =>
      cases ys with
      | nil => rfl
      | cons c rest =>
        cases rest with
        | nil => rfl
        | cons d rest =>
          cases rest with
          | nil => exact congrArg₂ and (Host.same_veiled a c) (Host.same_veiled b d)
          | cons => rfl
    | _ => rfl
  | mapping es =>
    cases y with
    | mapping fs =>
      have sizes :
          ((Host.entriesVeiled .relations es).length == (Host.entriesVeiled .relations fs).length) =
          (es.length == fs.length) := by
        rw [Host.entriesVeiled_eq_map, Host.entriesVeiled_eq_map, List.length_map, List.length_map]
      exact congrArg₂ and sizes (Host.sameEntries_veiled es fs)
    | _ => rfl
  | record r =>
    cases y with
    | record s => exact Record.same_veiled r s
    | _ => rfl
  | _ => cases y <;> rfl

theorem Host.sameAll_veiled (xs ys : List Host) :
    Host.sameAll (Host.allVeiled .relations xs) (Host.allVeiled .relations ys) =
      Host.sameAll xs ys := by
  cases xs with
  | nil => cases ys <;> rfl
  | cons x xs =>
    cases ys with
    | nil => rfl
    | cons y ys => exact congrArg₂ and (Host.same_veiled x y) (Host.sameAll_veiled xs ys)

theorem Host.sameEntries_veiled (es fs : List (Host × Host)) :
    Host.sameEntries (Host.entriesVeiled .relations es) (Host.entriesVeiled .relations fs) =
      Host.sameEntries es fs := by
  cases es with
  | nil => rfl
  | cons e es =>
    obtain ⟨k, x⟩ := e
    have found : (Host.entriesVeiled .relations fs).any (fun f =>
          (k.veiled .relations).same f.1 && (x.veiled .relations).same f.2) =
        fs.any fun f => k.same f.1 && x.same f.2 := by
      rw [Host.entriesVeiled_eq_map, List.any_map]
      exact congrArg fs.any
        (funext fun f => congrArg₂ and (Host.same_veiled k f.1) (Host.same_veiled x f.2))
    exact congrArg₂ and found (Host.sameEntries_veiled es fs)

theorem Host.sameFields_veiled (xs ys : List (String × Host)) :
    Host.sameFields (Host.fieldsVeiled .relations (fun _ => false) xs)
        (Host.fieldsVeiled .relations (fun _ => false) ys) =
      Host.sameFields xs ys := by
  cases xs with
  | nil => cases ys <;> rfl
  | cons f xs =>
    obtain ⟨m, x⟩ := f
    cases ys with
    | nil => rfl
    | cons f' ys =>
      obtain ⟨n, y⟩ := f'
      exact congrArg₂ and (congrArg (m == n && ·) (Host.same_veiled x y))
        (Host.sameFields_veiled xs ys)

theorem Record.same_veiled (r s : Record) :
    (r.veiled .relations).same (s.veiled .relations) = r.same s := by
  cases r with
  | fields i face fs allowed attributes =>
    cases s with
    | fields j face' fs' allowed' attributes' =>
      exact congrArg (fun same => i ==
        j || (face.typeName == face'.typeName && allowed == allowed' && same))
        (Host.sameFields_veiled fs fs')
    | _ => rfl
  | _ => cases s <;> rfl

end

/-- Whatever a template does, it makes the same of two contexts that differ in relations only that
no record of theirs includes, and in the relations of what is reached through included ones. -/
theorem Template.render_of_hidden_relations {source : String} {t : Template}
    (ht : Document.parse source = .ok t.document) {data data' : Option Host}
    {named named' : List (String × Host)} (same : Veil.relations.Same data named data' named')
    (g : Globals) :
    t.render g data named = t.render g data' named' := by
  refine Template.render_of_same Veil.unread_relations ht same ?_ g
  intro _ r r' s s' hr hs
  rw [← Record.same_veiled r s, hr.veiled, hs.veiled, Record.same_veiled]

/-- An article with its author: what else the author wrote is not seen, nor is who reviews the
article. -/
theorem Template.render_of_hidden_relations_author :
    let author (articles : List Instance) : Instance :=
      .mk "Author" [("name", .string "Ann")] [("articles", .many articles)]
    let article (reviewer : Related) (articles : List Instance) : Host :=
      .record (.model (.given 0)
        (.mk "Article" [] [("reviewer", reviewer), ("author", .one (author articles))]) ["author"])
    let other : Instance := .mk "Article" [("title", .string "On tags")] []
    ∃ d, Document.parse "<%= a.author.name %><%= a == a %>" = .ok d ∧
      Veil.relations.Same none [("a", article .none [])]
        none [("a", article (.one (author [])) [other])] ∧
      ∀ g, Template.render g ⟨d, none⟩ none [("a", article .none [])] =
        Template.render g ⟨d, none⟩ none [("a", article (.one (author [])) [other])] := by
  intro author article other
  have h : Document.parse "<%= a.author.name %><%= a == a %>" =
      .ok ⟨[.output 0 (.member 13 (.member 6 (.name 4 "a") "author" []) "name" []) true,
        .output 20 (.binary 26 .equal (.name 24 "a") (.name 29 "a")) true]⟩ := by cbv
  have same : Veil.relations.Same none [("a", article .none [])] none
      [("a", article (.one (author [])) [other])] := ⟨rfl, rfl⟩
  exact ⟨_, h, same, fun g => Template.render_of_hidden_relations h same g⟩

end Stencil
