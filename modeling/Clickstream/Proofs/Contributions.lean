import Clickstream.Proofs.Declarations

/-! # What a module contributes

Loading a module replaces what it contributed by what its documents declare, and dropping it takes
away what it contributed. Either reports the ids that are gone afterwards, no more and no fewer,
and leaves alone what others own, unless a document of the module declares it anew.
-/

namespace Clickstream

variable {r : Registry} {source : ModuleSource} {module : ModuleId} {kind : DefinitionKind}
  {name : String} {x : Declaration}

/-! ## What documents declare -/

/-- Whoever ships a document owns what it declares. -/
theorem Declaration.owner_ofDocument? {d : Document} (h : ofDocument? module kind d = some x) :
    x.owner = some module := by
  cases kind <;> obtain ⟨_, -, rfl⟩ := Option.map_eq_some_iff.1 h <;> rfl

namespace ModuleSource

theorem owner_of_mem_declared (h : x ∈ source.declared kind) : x.owner = some source.id := by
  obtain ⟨document, -, read⟩ := List.mem_filterMap.1 h
  obtain ⟨d, -, decoded⟩ := Option.bind_eq_some_iff.1 read
  exact Declaration.owner_ofDocument? decoded

/-- A namespace that cannot be listed has no documents. -/
theorem declared_of_not_lists (h : source.lists kind.ns = false) : source.declared kind = [] := by
  rw [lists] at h
  rw [declared, documents]
  cases listed : (source.list kind.ns).documents with
  | ok _ => simp [listed] at h
  | error _ => rfl

end ModuleSource

namespace Definitions

variable {d : Definitions}

theorem owner_of_mem_incoming (h : x ∈ d.incoming source kind) : x.owner = some source.id := by
  rw [incoming] at h
  split at h
  · exact ModuleSource.owner_of_mem_declared h
  · exact (mem_owned.1 h).2

/-- The ids that are put in for a module: those of its documents, and those that it keeps. -/
theorem mem_ids_incoming (keyed : d.Keyed) :
    name ∈ (d.incoming source kind).map Declaration.id ↔
      name ∈ (source.declared kind).map Declaration.id ∨
        source.lists kind.ns = false ∧ name ∈ (d.contributions source.id).ids kind := by
  rw [incoming]
  cases listed : source.lists kind.ns with
  | true => simp
  | false =>
    simp only [ModuleSource.declared_of_not_lists listed, List.map_nil, List.not_mem_nil, false_or,
      true_and, Bool.false_eq_true, if_false, List.mem_map, mem_owned, mem_contributions]
    constructor
    · rintro ⟨x, ⟨⟨id, found⟩, isOwner⟩, rfl⟩
      exact ⟨x, keyed.id found ▸ found, isOwner⟩
    · rintro ⟨x, found, isOwner⟩
      exact ⟨x, ⟨⟨name, found⟩, isOwner⟩, keyed.id found⟩

end Definitions

namespace Contributions

variable {a b : Contributions}

theorem mem_diff : name ∈ (a.diff b).ids kind ↔ name ∈ a.ids kind ∧ name ∉ b.ids kind := by
  cases kind <;> exact IdSet.mem_diff

theorem isEmpty_iff : a.isEmpty = true ↔ ∀ kind name, name ∉ a.ids kind := by
  simp only [isEmpty, Bool.and_eq_true, IdSet.isEmpty_iff]
  constructor
  · rintro ⟨⟨⟨⟨⟨tags, conditionTypes⟩, actionTypes⟩, valueTypes⟩, propertyTypes⟩, groups⟩ kind
    cases kind
    · exact tags
    · exact conditionTypes
    · exact actionTypes
    · exact valueTypes
    · exact propertyTypes
    · exact groups
  · intro none
    exact ⟨⟨⟨⟨⟨none .tag, none .conditionType⟩, none .actionType⟩, none .valueType⟩,
      none .propertyType⟩, none .propertyGroup⟩

end Contributions

namespace Registry

/-! ## Changes by a module -/

/-- What is left of a definition when those of a module go. -/
theorem filter_owner_eq_some {found : Option Declaration} :
    found.filter (fun x => x.owner ≠ some module) = some x ↔
      found = some x ∧ x.owner ≠ some module := by
  rw [Option.filter_eq_some_iff, decide_eq_true_iff]

private theorem filter_of_owned {found : Option Declaration} (h : found = some x)
    (owned : x.owner = some module) : found.filter (fun x => x.owner ≠ some module) = none := by
  rw [h, Option.filter_some]
  simp [owned]

theorem declaration?_unload : (r.unload module).1.definitions.declaration? kind name =
    (r.definitions.declaration? kind name).filter fun x => x.owner ≠ some module := by
  rw [unload]
  dsimp only
  split
  · next none =>
    -- The definitions stay, and there is nothing among them that the module owns.
    refine Option.ext fun x => ?_
    rw [filter_owner_eq_some]
    refine (and_iff_left_of_imp fun found owned => ?_).symm
    exact Contributions.isEmpty_iff.1 none kind name
      (Definitions.mem_contributions.2 ⟨x, found, owned⟩)
  · exact Definitions.declaration?_retract

/-- After loading it a module owns exactly what was put in for it. -/
theorem mem_contributions_load : name ∈ ((r.load source).1.contributions source.id).ids kind ↔
    name ∈ (r.definitions.incoming source kind).map Declaration.id := by
  rw [contributions, Definitions.mem_contributions]
  simp only [declaration?_load]
  constructor
  · rintro ⟨x, found, isOwner⟩
    rcases Option.or_eq_some_iff.1 found with put | ⟨-, kept⟩
    · obtain ⟨member, rfl⟩ := Declaration.of_last? put
      exact List.mem_map_of_mem member
    · exact ((filter_owner_eq_some.1 kept).2 isOwner).elim
  · intro member
    obtain ⟨x, put⟩ := Declaration.exists_last? member
    refine ⟨x, by rw [put]; rfl, ?_⟩
    exact Definitions.owner_of_mem_incoming (Declaration.of_last? put).1

/-- A module owns the definition of some kind under an id. -/
def Owns (r : Registry) (module : ModuleId) (kind : DefinitionKind) (id : String) : Prop :=
  ∃ x, r.definitions.declaration? kind id = some x ∧ x.owner = some module

/-- A kind has a definition under an id. -/
def Registers (r : Registry) (kind : DefinitionKind) (id : String) : Prop :=
  ∃ x, r.definitions.declaration? kind id = some x

/-- A report lists the ids that are registered before a change and no longer after it. -/
def Reports (before after : Registry) (removed : Contributions) : Prop :=
  ∀ kind id, id ∈ removed.ids kind ↔ before.Registers kind id ∧ ¬ after.Registers kind id

/-- What a module owns is registered. -/
theorem registers_of_mem_contributions (h : name ∈ (r.contributions module).ids kind) :
    r.Registers kind name := by
  obtain ⟨x, found, -⟩ := Definitions.mem_contributions.1 h
  exact ⟨x, found⟩

/-- What another one owns is registered after a module is loaded, as it was or declared anew. -/
theorem registers_load_of_other (found : r.definitions.declaration? kind name = some x)
    (other : x.owner ≠ some source.id) : (r.load source).1.Registers kind name := by
  have kept := filter_owner_eq_some.2 ⟨found, other⟩
  cases put : Declaration.last? (r.definitions.incoming source kind) name with
  | some y => exact ⟨y, by rw [declaration?_load, put]; rfl⟩
  | none => exact ⟨x, by rw [declaration?_load, put, kept]; rfl⟩

theorem reports_load : Reports r (r.load source).1 (r.load source).2.1.removed := by
  intro kind id
  refine Contributions.mem_diff.trans ⟨?_, ?_⟩
  · rintro ⟨owned, gone⟩
    refine ⟨registers_of_mem_contributions owned, ?_⟩
    rintro ⟨x, found⟩
    apply gone
    -- What is there afterwards was put in, as the module owned what was there before.
    obtain ⟨y, before, isOwner⟩ := Definitions.mem_contributions.1 owned
    rw [declaration?_load, filter_of_owned before isOwner, Option.or_none] at found
    obtain ⟨member, rfl⟩ := Declaration.of_last? found
    exact mem_contributions_load.2 (List.mem_map_of_mem member)
  · rintro ⟨⟨x, before⟩, gone⟩
    refine ⟨Definitions.mem_contributions.2 ⟨x, before, ?_⟩,
      fun current => gone (registers_of_mem_contributions current)⟩
    exact Decidable.byContradiction fun other => gone (registers_load_of_other before other)

/-- Loading a module takes nothing away that is put in for it again. -/
theorem not_mem_removed_load (again : r.Owns source.id kind name →
      name ∈ (r.definitions.incoming source kind).map Declaration.id) :
    name ∉ (r.load source).2.1.removed.ids kind := by
  intro member
  obtain ⟨⟨x, before⟩, gone⟩ := (reports_load kind name).1 member
  by_cases isOwner : x.owner = some source.id
  · have current := mem_contributions_load.2 (again ⟨x, before, isOwner⟩)
    exact gone (registers_of_mem_contributions current)
  · exact gone (registers_load_of_other before isOwner)

/-- A module that owns nothing takes nothing of what is declared with it. -/
theorem filter_owner_of_not_owns (none : ∀ kind name, ¬ r.Owns module kind name) :
    (r.definitions.declaration? kind name).filter (fun x => x.owner ≠ some module) =
      r.definitions.declaration? kind name := by
  refine Option.ext fun x => ?_
  rw [filter_owner_eq_some]
  exact and_iff_left_of_imp fun found isOwner => none kind name ⟨x, found, isOwner⟩

/-- Loading a module that owned nothing adds what it declares. -/
theorem declaration?_load_of_not_owns (none : ∀ kind name, ¬ r.Owns source.id kind name) :
    (r.load source).1.definitions.declaration? kind name =
      (Declaration.last? (source.declared kind) name).or
        (r.definitions.declaration? kind name) := by
  have incoming : r.definitions.incoming source kind = source.declared kind := by
    rw [Definitions.incoming]
    cases listed : source.lists kind.ns with
    | true => rfl
    | false =>
      -- What it would keep of a namespace that cannot be listed is nothing either.
      rw [ModuleSource.declared_of_not_lists listed, if_neg Bool.false_ne_true]
      refine List.eq_nil_iff_forall_not_mem.2 fun x member => ?_
      obtain ⟨⟨id, found⟩, isOwner⟩ := Definitions.mem_owned.1 member
      exact none kind id ⟨x, found, isOwner⟩
  rw [declaration?_load, incoming, filter_owner_of_not_owns none]

theorem reports_unload : Reports r (r.unload module).1 (r.unload module).2 := by
  intro kind id
  simp only [Registers, declaration?_unload]
  refine Definitions.mem_contributions.trans ⟨?_, ?_⟩
  · rintro ⟨x, before, isOwner⟩
    refine ⟨⟨x, before⟩, ?_⟩
    rintro ⟨y, kept⟩
    rw [filter_of_owned before isOwner] at kept
    cases kept
  · rintro ⟨⟨x, before⟩, gone⟩
    refine ⟨x, before, Decidable.byContradiction fun other => gone ⟨x, ?_⟩⟩
    exact filter_owner_eq_some.2 ⟨before, other⟩

/-! ## Loading and dropping a module -/

/-- Loading a module replaces exactly what it contributed. -/
structure LoadsOnly (r : Registry) (source : ModuleSource) : Prop where
  /-- Exactly the ids that vanish are reported. -/
  removed : Reports r (r.load source).1 (r.load source).2.1.removed
  /-- The module contributes what its documents declare, and keeps what it cannot list. -/
  contributes : ∀ kind id, id ∈ ((r.load source).1.contributions source.id).ids kind ↔
    id ∈ (source.declared kind).map Declaration.id ∨
      source.lists kind.ns = false ∧ id ∈ (r.contributions source.id).ids kind
  /-- What others own stays as it is unless a document declares it. -/
  others : ∀ kind id x, r.definitions.declaration? kind id = some x →
    x.owner ≠ some source.id → id ∉ (source.declared kind).map Declaration.id →
    (r.load source).1.definitions.declaration? kind id = some x

/-- Dropping a module takes away exactly what it contributed. -/
structure DropsOnly (r : Registry) (module : ModuleId) : Prop where
  /-- Exactly the ids that vanish are reported. -/
  removed : Reports r (r.unload module).1 (r.unload module).2
  /-- The module contributes nothing. -/
  contributes : ∀ kind id, id ∉ ((r.unload module).1.contributions module).ids kind
  /-- What others own stays as it is. -/
  others : ∀ kind id x, r.definitions.declaration? kind id = some x → x.owner ≠ some module →
    (r.unload module).1.definitions.declaration? kind id = some x

theorem loadsOnly (keyed : r.definitions.Keyed) : r.LoadsOnly source where
  removed := reports_load
  contributes kind id := mem_contributions_load.trans (Definitions.mem_ids_incoming keyed)
  others kind id x before other undeclared := by
    have kept := filter_owner_eq_some.2 ⟨before, other⟩
    have notPut : Declaration.last? (r.definitions.incoming source kind) id = none := by
      rw [Declaration.last?_eq_none, Definitions.mem_ids_incoming keyed]
      rintro (declared | ⟨-, owned⟩)
      · exact undeclared declared
      · obtain ⟨y, found, isOwner⟩ := Definitions.mem_contributions.1 owned
        rw [before] at found
        cases found
        exact other isOwner
    rw [declaration?_load, notPut, kept]
    rfl

theorem dropsOnly : r.DropsOnly module where
  removed := reports_unload
  contributes kind id owned := by
    obtain ⟨x, found, isOwner⟩ := Definitions.mem_contributions.1 owned
    rw [declaration?_unload] at found
    exact (filter_owner_eq_some.1 found).2 isOwner
  others kind id x before other := by
    rw [declaration?_unload]
    exact filter_owner_eq_some.2 ⟨before, other⟩

/-- After any calls on an empty registry, loading and dropping a module report exactly the ids that
vanish, leave the module with what it ships, and leave the rest alone. -/
theorem changes_only_own (calls : List Call) :
    (∀ source, (after calls).LoadsOnly source) ∧ ∀ module, (after calls).DropsOnly module :=
  ⟨fun _ => loadsOnly (Indexed.after calls).keyed, fun _ => dropsOnly⟩

end Registry

end Clickstream
