import Clickstream.Proofs.Indexing

/-! # Declarations

The six kinds of definitions seen as one: what is declared under an id, whatever its kind, what a
module ships and what it owns. Every change of the definitions is said once here for all kinds, by
what it makes of the declaration under an id.
-/

namespace Clickstream

/-- A definition of any kind. -/
inductive Declaration where
  | tag (t : Tag)
  | conditionType (t : ConditionType)
  | actionType (t : ActionType)
  | valueType (t : ValueType)
  | propertyType (t : PropertyType)
  | propertyGroup (g : PropertyGroup)

namespace Declaration

/-- The id. -/
def id : Declaration → String
  | tag t => t.id
  | conditionType t => t.id
  | actionType t => t.id
  | valueType t => t.id
  | propertyType t => t.id
  | propertyGroup g => g.id

/-- The module that contributed it. -/
def owner : Declaration → Option ModuleId
  | tag t => t.moduleId
  | conditionType t => t.moduleId
  | actionType t => t.moduleId
  | valueType t => t.moduleId
  | propertyType t => t.moduleId
  | propertyGroup g => g.moduleId

/-- Read a document of a module. -/
def ofDocument? (module : ModuleId) (kind : DefinitionKind) (d : Document) : Option Declaration :=
  match kind with
  | .tag => (Tag.ofDocument? d).map fun t => tag { t with moduleId := some module }
  | .conditionType =>
    (ConditionType.ofDocument? d).map fun t => conditionType { t with moduleId := some module }
  | .actionType =>
    (ActionType.ofDocument? d).map fun t => actionType { t with moduleId := some module }
  | .valueType =>
    (ValueType.ofDocument? d).map fun t => valueType { t with moduleId := some module }
  | .propertyType =>
    (PropertyType.ofDocument? d).map fun t => propertyType { t with moduleId := some module }
  | .propertyGroup =>
    (PropertyGroup.ofDocument? d).map fun g => propertyGroup { g with moduleId := some module }

/-- The last declaration of an id. -/
def last? (declarations : List Declaration) (id : String) : Option Declaration :=
  declarations.reverse.find? fun x => x.id = id

end Declaration

namespace DefinitionKind

/-- The namespace of the documents. -/
def ns : DefinitionKind → Namespace
  | tag => .tags
  | conditionType => .conditions
  | actionType => .actions
  | valueType => .values
  | propertyType => .properties
  | propertyGroup => .properties

/-- Whether a document of the namespace is one of the kind. -/
def describedBy (kind : DefinitionKind) (document : SourceDocument) : Bool :=
  match kind with
  | propertyType => !Intake.describesGroup document
  | propertyGroup => Intake.describesGroup document
  | _ => true

end DefinitionKind

namespace ModuleSource

/-- Whether a namespace can be listed. -/
def lists (source : ModuleSource) (ns : Namespace) : Bool :=
  match (source.list ns).documents with
  | .ok _ => true
  | .error _ => false

/-- The documents in a namespace. -/
def documents (source : ModuleSource) (ns : Namespace) : List SourceDocument :=
  match (source.list ns).documents with
  | .ok documents => documents
  | .error _ => []

/-- What the documents of a kind that can be read declare. -/
def declared (source : ModuleSource) (kind : DefinitionKind) : List Declaration :=
  ((source.documents kind.ns).filter kind.describedBy).filterMap fun document =>
    (Json.read? document.content).bind (Declaration.ofDocument? source.id kind)

end ModuleSource

namespace Definitions

/-- The declaration of a kind under an id. -/
def declaration? (d : Definitions) (kind : DefinitionKind) (id : String) : Option Declaration :=
  match kind with
  | .tag => (d.tags.get? id).map .tag
  | .conditionType => (d.conditionTypes.get? id).map .conditionType
  | .actionType => (d.actionTypes.get? id).map .actionType
  | .valueType => (d.valueTypes.get? id).map .valueType
  | .propertyType => (d.propertyTypes.get? id).map .propertyType
  | .propertyGroup => (d.propertyGroups.get? id).map .propertyGroup

/-- The declarations of a kind that a module owns, by id. -/
def owned (d : Definitions) (module : ModuleId) : DefinitionKind → List Declaration
  | .tag => (d.tags.ownedBy Tag.moduleId module).values.map .tag
  | .conditionType =>
    (d.conditionTypes.ownedBy ConditionType.moduleId module).values.map .conditionType
  | .actionType => (d.actionTypes.ownedBy ActionType.moduleId module).values.map .actionType
  | .valueType => (d.valueTypes.ownedBy ValueType.moduleId module).values.map .valueType
  | .propertyType => (d.propertyTypes.ownedBy PropertyType.moduleId module).values.map .propertyType
  | .propertyGroup =>
    (d.propertyGroups.ownedBy PropertyGroup.moduleId module).values.map .propertyGroup

end Definitions

/-- The declarations of a kind in a batch. -/
def Batch.declarations (b : Batch) : DefinitionKind → List Declaration
  | .tag => b.tags.map .tag
  | .conditionType => b.conditionTypes.map .conditionType
  | .actionType => b.actionTypes.map .actionType
  | .valueType => b.valueTypes.map .valueType
  | .propertyType => b.propertyTypes.map .propertyType
  | .propertyGroup => b.propertyGroups.map .propertyGroup

/-! ## Lists of declarations -/

namespace Declaration

variable {declarations : List Declaration} {name : String} {x : Declaration}

theorem of_last? (h : last? declarations name = some x) : x ∈ declarations ∧ x.id = name :=
  ⟨List.mem_reverse.1 (List.mem_of_find?_eq_some h), by simpa using List.find?_some h⟩

theorem last?_eq_none : last? declarations name = none ↔ name ∉ declarations.map id := by
  simp [last?, List.find?_eq_none]

theorem exists_last? (h : name ∈ declarations.map id) : ∃ x, last? declarations name = some x := by
  rw [← Option.isSome_iff_exists, ← Option.ne_none_iff_isSome, ne_eq, last?_eq_none]
  exact not_not_intro h

end Declaration

/-! ## Tables of one kind -/

namespace Table

variable {V : Type} {table : Table V} {name : String} {kind : V → Declaration}

/-- Putting values in is putting their declarations in. -/
theorem map_get?_insertAll {values : List V} {id : V → String} (same : ∀ v, (kind v).id = id v) :
    ((table.insertAll (values.map fun v => (id v, v))).get? name).map kind =
      (Declaration.last? (values.map kind) name).or ((table.get? name).map kind) := by
  have found : ∀ values : List V, (Fields.get? (values.map fun v => (id v, v)) name).map kind =
      (values.map kind).find? fun x => x.id = name := by
    intro values
    induction values with
    | nil => rfl
    | cons v rest ih =>
      rw [List.map_cons, List.map_cons, Fields.get?_cons, List.find?_cons, same, ← ih]
      by_cases isName : id v = name <;> simp [isName]
  rw [get?_insertAll, Option.map_or, ← List.map_reverse, found, Declaration.last?,
    ← List.map_reverse]

theorem map_get?_withoutOwner {owner : V → Option ModuleId} {module : ModuleId}
    (same : ∀ v, (kind v).owner = owner v) :
    ((table.withoutOwner owner module).get? name).map kind =
      ((table.get? name).map kind).filter fun x => x.owner ≠ some module := by
  rw [withoutOwner, get?_filter]
  cases table.get? name with
  | none => rfl
  | some v => simp only [Option.filter_some, Option.map_some, same]; split <;> rfl

theorem exists_map_get? :
    (∃ x, (table.get? name).map kind = some x) ↔ table.contains name = true := by
  rw [← Option.isSome_iff_exists, Option.isSome_map, contains]

theorem get?_ownedBy {owner : V → Option ModuleId} {module : ModuleId} {v : V} :
    (table.ownedBy owner module).get? name = some v ↔
      table.get? name = some v ∧ owner v = some module := by
  rw [ownedBy, get?_filter, Option.filter_eq_some_iff, decide_eq_true_iff]

theorem mem_idSet_ownedBy {owner : V → Option ModuleId} {module : ModuleId}
    (same : ∀ v, (kind v).owner = owner v) :
    name ∈ (table.ownedBy owner module).idSet ↔
      ∃ x, (table.get? name).map kind = some x ∧ x.owner = some module := by
  rw [mem_idSet, contains_iff]
  simp only [get?_ownedBy, Option.map_eq_some_iff]
  constructor
  · rintro ⟨v, found, isOwner⟩
    exact ⟨_, ⟨v, found, rfl⟩, (same v).trans isOwner⟩
  · rintro ⟨_, ⟨v, found, rfl⟩, isOwner⟩
    exact ⟨v, found, (same v).symm.trans isOwner⟩

theorem mem_values_ownedBy {owner : V → Option ModuleId} {module : ModuleId} {x : Declaration}
    (same : ∀ v, (kind v).owner = owner v) :
    x ∈ (table.ownedBy owner module).values.map kind ↔
      (∃ name, (table.get? name).map kind = some x) ∧ x.owner = some module := by
  simp only [List.mem_map, mem_values, get?_ownedBy, Option.map_eq_some_iff]
  constructor
  · rintro ⟨v, ⟨name, found, isOwner⟩, rfl⟩
    exact ⟨⟨name, v, found, rfl⟩, (same v).trans isOwner⟩
  · rintro ⟨⟨name, v, found, rfl⟩, isOwner⟩
    exact ⟨v, ⟨name, found, (same v).symm.trans isOwner⟩, rfl⟩

end Table

/-! ## Changes of the definitions -/

namespace Definitions

variable {d d' : Definitions} {module : ModuleId} {kind : DefinitionKind} {name : String}
  {x : Declaration}

theorem Keyed.id (h : d.Keyed) (found : d.declaration? kind name = some x) : x.id = name := by
  cases kind <;> obtain ⟨t, isThere, rfl⟩ := Option.map_eq_some_iff.1 found
  · exact h.tags _ _ isThere
  · exact h.conditionTypes _ _ isThere
  · exact h.actionTypes _ _ isThere
  · exact h.valueTypes _ _ isThere
  · exact h.propertyTypes _ _ isThere
  · exact h.propertyGroups _ _ isThere

@[simp] theorem declaration?_empty : ({} : Definitions).declaration? kind name = none := by
  cases kind <;> rfl

theorem declaration?_apply {batch : Batch} : (d.apply batch).declaration? kind name =
    (Declaration.last? (batch.declarations kind) name).or (d.declaration? kind name) := by
  cases kind <;> exact Table.map_get?_insertAll fun _ => rfl

theorem declaration?_retract : (d.retract module).declaration? kind name =
    (d.declaration? kind name).filter fun x => x.owner ≠ some module := by
  cases kind <;> exact Table.map_get?_withoutOwner fun _ => rfl

theorem mem_contributions : name ∈ (d.contributions module).ids kind ↔
    ∃ x, d.declaration? kind name = some x ∧ x.owner = some module := by
  cases kind <;> exact Table.mem_idSet_ownedBy fun _ => rfl

theorem mem_owned : x ∈ d.owned module kind ↔
    (∃ name, d.declaration? kind name = some x) ∧ x.owner = some module := by
  cases kind <;> exact Table.mem_values_ownedBy fun _ => rfl

theorem declarations_carryOver {batch : Batch} {ns : Namespace} :
    (d.carryOver module batch ns).declarations kind =
      if kind.ns = ns then d.owned module kind else batch.declarations kind := by
  cases ns <;> cases kind <;> rfl

theorem declarations_foldl_carryOver {batch : Batch} {unlisted : List Namespace} :
    (unlisted.foldl (d.carryOver module) batch).declarations kind =
      if kind.ns ∈ unlisted then d.owned module kind else batch.declarations kind := by
  induction unlisted generalizing batch with
  | nil => simp
  | cons ns rest ih => rw [List.foldl_cons, ih, declarations_carryOver]; grind

/-- Definitions are determined by what is declared under every id. -/
theorem ext (h : ∀ kind name, d.declaration? kind name = d'.declaration? kind name) : d = d' := by
  have table {V : Type} {kind : V → Declaration} {a b : Table V}
      (inj : ∀ v w, kind v = kind w → v = w)
      (same : ∀ name, (a.get? name).map kind = (b.get? name).map kind) : a = b :=
    Table.ext fun name => Option.map_injective (fun v w => inj v w) (same name)
  have tags := table (fun _ _ => Declaration.tag.inj) (h .tag)
  have conditionTypes := table (fun _ _ => Declaration.conditionType.inj) (h .conditionType)
  have actionTypes := table (fun _ _ => Declaration.actionType.inj) (h .actionType)
  have valueTypes := table (fun _ _ => Declaration.valueType.inj) (h .valueType)
  have propertyTypes := table (fun _ _ => Declaration.propertyType.inj) (h .propertyType)
  have propertyGroups := table (fun _ _ => Declaration.propertyGroup.inj) (h .propertyGroup)
  cases d
  cases d'
  simp only [mk.injEq]
  exact ⟨tags, conditionTypes, actionTypes, valueTypes, propertyTypes, propertyGroups⟩

end Definitions

/-! ## What a module ships -/

namespace Parsed

theorem read_ofDocuments {α : Type} {ns : Namespace} {decode : Document → Option α}
    {documents : List SourceDocument} : (ofDocuments ns decode documents).read =
      documents.filterMap fun document => (Json.read? document.content).bind decode := by
  induction documents with
  | nil => rfl
  | cons document rest ih =>
    rw [List.filterMap_cons, ← ih, ofDocuments, List.foldr_cons, add]
    cases (Json.read? document.content).bind decode <;> rfl

/-- Reading documents and handing them to an owner is reading declarations of the owner. -/
theorem map_read_ofDocuments {α : Type} {ns : Namespace} {decode : Document → Option α}
    {documents : List SourceDocument} {own : α → α} {kind : α → Declaration} :
    ((ofDocuments ns decode documents).read.map own).map kind =
      documents.filterMap fun document =>
        (Json.read? document.content).bind fun d => (decode d).map fun t => kind (own t) := by
  rw [read_ofDocuments, List.map_map, List.map_filterMap]
  congr 1
  funext document
  cases Json.read? document.content with
  | none => rfl
  | some d => cases decode d <;> rfl

end Parsed

namespace Intake

variable {source : ModuleSource} {module : ModuleId} {r : Intake} {ns : Namespace}
  {kind : DefinitionKind}

/-- Taking the documents of a namespace reads those of its kinds. -/
theorem declarations_take {documents : List SourceDocument} :
    (r.take module ns documents).batch.declarations kind = if kind.ns = ns then
      (documents.filter kind.describedBy).filterMap fun document =>
        (Json.read? document.content).bind (Declaration.ofDocument? module kind)
      else r.batch.declarations kind := by
  have all : ∀ documents : List SourceDocument, documents.filter (fun _ => true) = documents :=
    fun _ => List.filter_eq_self.2 fun _ _ => rfl
  have parts : documents.partition describesGroup =
      (documents.filter describesGroup, documents.filter (not ∘ describesGroup)) :=
    List.partition_eq_filter_filter
  cases ns <;> cases kind
  case properties.propertyType =>
    rw [take, parts]
    exact Parsed.map_read_ofDocuments
  case properties.propertyGroup =>
    rw [take, parts]
    exact Parsed.map_read_ofDocuments
  case tags.tag | conditions.conditionType | actions.actionType | values.valueType =>
    exact Parsed.map_read_ofDocuments.trans (congrArg (List.filterMap _) (all documents).symm)
  all_goals rfl

theorem declarations_step : (step source r ns).batch.declarations kind =
    if kind.ns = ns ∧ source.lists ns = true then source.declared kind
    else r.batch.declarations kind := by
  rw [step, ModuleSource.lists, ModuleSource.declared, ModuleSource.documents]
  dsimp only
  by_cases same : kind.ns = ns
  · subst same
    cases listed : (source.list kind.ns).documents with
    | ok documents => simp only [declarations_take, and_self, if_true]
    | error reason => simp [note]
  · simp only [same, false_and, if_false]
    cases listed : (source.list ns).documents with
    | ok documents => simp only [declarations_take, same, if_false]
    | error reason => rfl

theorem unlisted_take {documents : List SourceDocument} :
    (r.take module ns documents).unlisted = r.unlisted := by
  cases ns <;> rfl

theorem mem_unlisted_step {other : Namespace} : other ∈ (step source r ns).unlisted ↔
    other ∈ r.unlisted ∨ other = ns ∧ source.lists ns = false := by
  rw [step, ModuleSource.lists]
  dsimp only
  cases listed : (source.list ns).documents with
  | ok documents => simp [unlisted_take]
  | error reason => simp [note]

/-- What was read of some namespaces: what the module declares in those that it lists. -/
theorem foldl_step {namespaces : List Namespace} :
    (namespaces.foldl (step source) r).batch.declarations kind =
      (if kind.ns ∈ namespaces ∧ source.lists kind.ns = true then source.declared kind
        else r.batch.declarations kind) ∧
    ∀ ns, ns ∈ (namespaces.foldl (step source) r).unlisted ↔
      ns ∈ r.unlisted ∨ ns ∈ namespaces ∧ source.lists ns = false := by
  induction namespaces generalizing r with
  | nil => simp
  | cons head rest ih =>
    obtain ⟨declarations, unlisted⟩ := @ih (step source r head)
    rw [List.foldl_cons, declarations, declarations_step]
    refine ⟨by grind, fun ns => ?_⟩
    rw [unlisted, mem_unlisted_step]
    grind

end Intake

/-- What is put in for a module that is loaded: what it declares, and what it owned in a namespace
that it cannot list. -/
def Definitions.incoming (d : Definitions) (source : ModuleSource) (kind : DefinitionKind) :
    List Declaration :=
  if source.lists kind.ns then source.declared kind else d.owned source.id kind

namespace Registry

variable {r : Registry} {source : ModuleSource} {kind : DefinitionKind} {name : String}

/-- Under every id there is afterwards the last declaration that was put in, or what was there and
the module does not own. -/
theorem declaration?_load : (r.load source).1.definitions.declaration? kind name =
    (Declaration.last? (r.definitions.incoming source kind) name).or
      ((r.definitions.declaration? kind name).filter fun x => x.owner ≠ some source.id) := by
  have inAll : kind.ns ∈ [Namespace.tags, .conditions, .actions, .values, .properties] := by
    cases kind <;> simp [DefinitionKind.ns]
  obtain ⟨declarations, unlisted⟩ := @Intake.foldl_step source {} kind
    [Namespace.tags, .conditions, .actions, .values, .properties]
  have put : ((Intake.ofSource source).unlisted.foldl (r.definitions.carryOver source.id)
      (Intake.ofSource source).batch).declarations kind = r.definitions.incoming source kind := by
    rw [Definitions.declarations_foldl_carryOver, Definitions.incoming]
    have carried := unlisted kind.ns
    simp only [inAll, true_and] at declarations carried
    rw [← Intake.ofSource] at declarations carried
    cases listed : source.lists kind.ns with
    | true => simp [carried, declarations, listed]
    | false => simp [carried, listed]
  rw [load]
  simp only [publish, Definitions.declaration?_apply, Definitions.declaration?_retract, put]

end Registry

end Clickstream
