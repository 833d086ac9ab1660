import Clickstream.Proofs.Contributions

/-! # Registries with the same declarations

All that a registry answers is worked out from the declarations that it holds, so how these came to
be there does not matter. In particular, what a new module changes — dangling references that now
lead somewhere, circles of tags that close or open, groups that fill and mappings that are taken
over — is undone by dropping the module again, and two new modules can be loaded in either order.
-/

namespace Clickstream

/-- Two modules have different ids and declare nothing of one kind under one id. -/
structure ModuleSource.SharesNothing (a b : ModuleSource) : Prop where
  ids : a.id ≠ b.id
  declared : ∀ kind, ∀ x ∈ a.declared kind, ∀ y ∈ b.declared kind, x.id ≠ y.id

theorem ModuleSource.SharesNothing.symm {a b : ModuleSource} (h : a.SharesNothing b) :
    b.SharesNothing a :=
  ⟨h.ids.symm, fun kind y inB x inA same => h.declared kind x inA y inB same.symm⟩

namespace Registry

variable {r r' : Registry} {a b source : ModuleSource} {kind : DefinitionKind} {name : String}
  {x : Declaration}

/-! ## The same content -/

/-- Two registries have the same content: everything but the number of their changes. -/
structure SameContent (r r' : Registry) : Prop where
  definitions : r.definitions = r'.definitions
  index : r.index = r'.index

/-- The answers of two registries to everything that can be asked of them. -/
structure AnswersAlike (r r' : Registry) : Prop where
  taxonomy : r.taxonomy = r'.taxonomy
  resolvedTags : ∀ declared, r.resolvedTags declared = r'.resolvedTags declared
  classify : ∀ t, r.classify t = r'.classify t
  conditionType? : ∀ id, r.conditionType? id = r'.conditionType? id
  actionType? : ∀ id, r.actionType? id = r'.actionType? id
  valueType? : ∀ id, r.valueType? id = r'.valueType? id
  propertyType? : ∀ id, r.propertyType? id = r'.propertyType? id
  evaluatorNames : ∀ id, r.evaluatorNames id = r'.evaluatorNames id
  valueTypeOf? : ∀ t, r.valueTypeOf? t = r'.valueTypeOf? t
  conditionTypesByTag : ∀ tag recursive,
    r.conditionTypesByTag tag recursive = r'.conditionTypesByTag tag recursive
  actionTypesByTag : ∀ tag recursive,
    r.actionTypesByTag tag recursive = r'.actionTypesByTag tag recursive
  valueTypesByTag : ∀ tag recursive,
    r.valueTypesByTag tag recursive = r'.valueTypesByTag tag recursive
  propertyTypes : r.propertyTypes = r'.propertyTypes
  groups : r.groups = r'.groups
  groupMembers? : ∀ groupId, r.groupMembers? groupId = r'.groupMembers? groupId
  propertyMapping? : ∀ name, r.propertyMapping? name = r'.propertyMapping? name
  contributions : ∀ module, r.contributions module = r'.contributions module
  /-- Conditions are resolved to the same types, or refused for the same one. -/
  resolve : ∀ c : Condition, c.resolve r = c.resolve r'

/-- Only the number of changes tells registries with the same content apart, and no answer depends
on that. -/
theorem SameContent.answersAlike (h : r.SameContent r') : r.AnswersAlike r' := by
  obtain ⟨generation, definitions, index⟩ := r
  obtain ⟨generation', definitions', index'⟩ := r'
  obtain ⟨rfl, rfl⟩ := h
  constructor <;> intros <;> rfl

/-- The index follows from the definitions, and these from what is declared under every id. -/
theorem Indexed.sameContent (h : r.Indexed) (h' : r'.Indexed)
    (same : ∀ kind id, r.definitions.declaration? kind id = r'.definitions.declaration? kind id) :
    r.SameContent r' := by
  have definitions := Definitions.ext same
  exact ⟨definitions, by rw [h.index, h'.index, definitions]⟩

/-! ## New modules -/

/-- A module is new to a registry: it contributes nothing, and none of the ids that it declares is
registered. -/
structure IsNew (r : Registry) (source : ModuleSource) : Prop where
  owns : ∀ kind id, ¬ r.Owns source.id kind id
  declared : ∀ kind, ∀ x ∈ source.declared kind, ¬ r.Registers kind x.id

namespace IsNew

/-- Nothing is registered under an id that a new module declares. -/
theorem declaration?_eq_none (h : r.IsNew source)
    (declares : Declaration.last? (source.declared kind) name = some x) :
    r.definitions.declaration? kind name = none := by
  obtain ⟨member, rfl⟩ := Declaration.of_last? declares
  exact Option.eq_none_iff_forall_ne_some.2 fun y found => h.declared kind x member ⟨y, found⟩

/-- A new module stays new when another one is loaded with which it shares nothing. -/
theorem load (newA : r.IsNew a) (newB : r.IsNew b) (apart : a.SharesNothing b) :
    (r.load a).1.IsNew b where
  owns := by
    rintro kind id ⟨x, found, isOwner⟩
    rw [declaration?_load_of_not_owns newA.owns, Option.or_eq_some_iff] at found
    rcases found with declares | ⟨-, before⟩
    · have owner := ModuleSource.owner_of_mem_declared (Declaration.of_last? declares).1
      rw [isOwner] at owner
      exact apart.ids (Option.some.inj owner).symm
    · exact newB.owns kind id ⟨x, before, isOwner⟩
  declared := by
    rintro kind y inB ⟨x, found⟩
    rw [declaration?_load_of_not_owns newA.owns, Option.or_eq_some_iff] at found
    rcases found with declares | ⟨-, before⟩
    · obtain ⟨inA, same⟩ := Declaration.of_last? declares
      exact apart.declared kind x inA y inB same
    · exact newB.declared kind y inB ⟨x, before⟩

theorem unload_load (h : r.IsNew source) :
    (((r.load source).1.unload source.id).1).definitions.declaration? kind name =
      r.definitions.declaration? kind name := by
  rw [declaration?_unload, declaration?_load_of_not_owns h.owns]
  cases declares : Declaration.last? (source.declared kind) name with
  | none => rw [Option.none_or, filter_owner_of_not_owns h.owns]
  | some x =>
    have owner := ModuleSource.owner_of_mem_declared (Declaration.of_last? declares).1
    rw [h.declaration?_eq_none declares, Option.some_or, Option.filter_some,
      if_neg (by simp [owner])]

theorem load_comm (newA : r.IsNew a) (newB : r.IsNew b) (apart : a.SharesNothing b) :
    ((r.load a).1.load b).1.definitions.declaration? kind name =
      ((r.load b).1.load a).1.definitions.declaration? kind name := by
  rw [declaration?_load_of_not_owns (newA.load newB apart).owns,
    declaration?_load_of_not_owns (newB.load newA apart.symm).owns,
    declaration?_load_of_not_owns newA.owns, declaration?_load_of_not_owns newB.owns,
    ← Option.or_assoc, ← Option.or_assoc]
  congr 1
  -- At most one of the two declares something under the id.
  cases inA : Declaration.last? (a.declared kind) name with
  | none => rw [Option.none_or, Option.or_none]
  | some x =>
    cases inB : Declaration.last? (b.declared kind) name with
    | none => rfl
    | some y =>
      obtain ⟨memberA, sameA⟩ := Declaration.of_last? inA
      obtain ⟨memberB, sameB⟩ := Declaration.of_last? inB
      exact absurd (sameA.trans sameB.symm) (apart.declared kind x memberA y memberB)

end IsNew

/-- In any registry that calls lead to, dropping a new module undoes loading it, and two new modules
that share nothing can be loaded in either order; for whatever calls lead to the same declarations
with the same owners, the content is the same and so is every answer. -/
theorem content_of_declarations {calls : List Call} (newA : (after calls).IsNew a)
    (newB : (after calls).IsNew b) (apart : a.SharesNothing b) :
    (((after calls).load a).1.unload a.id).1.SameContent (after calls) ∧
      (((after calls).load a).1.load b).1.SameContent (((after calls).load b).1.load a).1 ∧
      ∀ one other, (∀ kind id, (after one).definitions.declaration? kind id =
          (after other).definitions.declaration? kind id) →
        (after one).SameContent (after other) ∧ (after one).AnswersAlike (after other) := by
  have indexed := Indexed.after calls
  refine ⟨?_, ?_, fun one other same => ?_⟩
  · exact ((indexed.load a).unload a.id).sameContent indexed fun _ _ => newA.unload_load
  · exact ((indexed.load a).load b).sameContent ((indexed.load b).load a)
      fun _ _ => newA.load_comm newB apart
  · have content := (Indexed.after one).sameContent (Indexed.after other) same
    exact ⟨content, content.answersAlike⟩

/-- A tag and a condition type under a tag that is not registered, and a property that an incoming
name stands for. -/
def contactCalls : List Call :=
  [.registerTag { id := "form", parentId := some "page" },
    .registerConditionType { id := "formSubmit", tagIds := .ofList ["page"] },
    .registerPropertyType
      { id := "email", valueTypeId := "text", groupId := "contact", mappingsFrom := ["mail"] }]

/-- A module with the tag that is missing, whose property takes over the incoming name. -/
def pageModule : ModuleSource where
  id := "pages"
  list
    | .tags => { documents := .ok [⟨"page", "page",
        "\x7b\"id\":\"page\",\"parent\":\"site\"\x7d"⟩] }
    | .values => { documents := .ok [⟨"text", "text", "\x7b\"id\":\"text\"\x7d"⟩] }
    | .properties => { documents := .ok [⟨"letters", "letters",
        "\x7b\"id\":\"letters\",\"type\":\"text\",\"groupId\":\"contact\","
          ++ "\"automaticMappingsFrom\":[\"mail\"]\x7d"⟩] }
    | _ => { documents := .ok [] }

/-- A module whose tag closes the circle. -/
def siteModule : ModuleSource where
  id := "sites"
  list
    | .tags => { documents := .ok [⟨"site", "site",
        "\x7b\"id\":\"site\",\"parent\":\"form\"\x7d"⟩] }
    | _ => { documents := .ok [] }

/-- A module is new if it contributes nothing and nothing that it declares is found. -/
theorem isNew_of_nothing (owns : (r.contributions source.id).isEmpty = true)
    (declared : DefinitionKind.all.all (fun kind => (source.declared kind).all fun x =>
      (r.definitions.declaration? kind x.id).isNone) = true) : r.IsNew source where
  owns kind id owned :=
    Contributions.isEmpty_iff.1 owns kind id (Definitions.mem_contributions.2 owned)
  declared kind x member := by
    rintro ⟨y, found⟩
    have every : kind ∈ DefinitionKind.all := by cases kind <;> decide
    have none := List.all_eq_true.1 (List.all_eq_true.1 declared kind every) x member
    rw [found] at none
    cases none

theorem content_of_declarations_pages :
    (after contactCalls).IsNew pageModule ∧ (after contactCalls).IsNew siteModule ∧
      pageModule.SharesNothing siteModule ∧
      -- The first module maps the name anew, the second one has a circle opened.
      (after contactCalls).propertyMapping? "mail" = some "email" ∧
      ((after contactCalls).load pageModule).1.propertyMapping? "mail" = some "letters" ∧
      ((after contactCalls).load pageModule).1.taxonomy.roots.toList = ["page"] ∧
      (((after contactCalls).load pageModule).1.load siteModule).1.taxonomy.detached.toList =
        ["form"] ∧
      (((after contactCalls).load pageModule).1.unload "pages").1.SameContent (after contactCalls) ∧
      (((after contactCalls).load pageModule).1.load siteModule).1.SameContent
        (((after contactCalls).load siteModule).1.load pageModule).1 ∧
      (after (contactCalls ++ [.load pageModule, .load siteModule])).AnswersAlike
        (after (contactCalls ++ [.load siteModule, .load pageModule])) := by
  have newPages : (after contactCalls).IsNew pageModule :=
    isNew_of_nothing (by decide +kernel) (by decide +kernel)
  have newSites : (after contactCalls).IsNew siteModule :=
    isNew_of_nothing (by decide +kernel) (by decide +kernel)
  have apart : pageModule.SharesNothing siteModule := by
    refine ⟨by decide, fun kind => ?_⟩
    have checked : ∀ kind ∈ DefinitionKind.all, ((pageModule.declared kind).all fun x =>
        (siteModule.declared kind).all fun y => decide (x.id ≠ y.id)) = true := by decide +kernel
    have every : kind ∈ DefinitionKind.all := by cases kind <;> decide
    simpa using checked kind every
  obtain ⟨back, swapped, alike⟩ := content_of_declarations newPages newSites apart
  refine ⟨newPages, newSites, apart, by decide +kernel, by decide +kernel, by decide +kernel,
    by decide +kernel, back, swapped, (alike _ _ fun kind id => ?_).2⟩
  simp only [after, List.foldl_append]
  exact congrArg (·.declaration? kind id) swapped.definitions

end Registry

end Clickstream
