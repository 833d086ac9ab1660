import Clickstream.Definitions
import Clickstream.Taxonomy
import Clickstream.Text

/-! # The index of definitions

Everything that follows from the declared definitions: the taxonomy, the types with their registered
tags, the types under every tag, the groups with their members and the names that map to a property.
It is worked out anew after every change, so it depends on the declared definitions alone.
References that lead nowhere are dropped and reported.
-/

namespace Clickstream

/-- A reference to a tag or value type that is not registered. -/
structure UnresolvedReference where
  /-- The kind of the definition that holds it. -/
  kind : DefinitionKind
  /-- The id of that definition. -/
  owner : String
  /-- The id that is not registered. -/
  reference : String
  deriving DecidableEq

/-- What an index had to drop or mend. -/
structure IndexReport where
  /-- What the taxonomy had to mend. -/
  taxonomy : TaxonomyReport
  unresolved : List UnresolvedReference

/-- A group with its members. -/
structure IndexedGroup where
  group : PropertyGroup
  /-- Only named by a property type, not declared. -/
  implicit : Bool := false
  /-- The property types that name it. -/
  members : IdSet := {}
  deriving Inhabited

/-- A type with those of its declared tags that are registered. -/
structure Tagged (α : Type u) where
  type : α
  /-- The declared tags that are registered. -/
  resolvedTags : IdSet
  deriving Inhabited

/-- A property type with what its references lead to. -/
structure IndexedProperty where
  type : PropertyType
  /-- The declared tags that are registered. -/
  resolvedTags : IdSet
  /-- The value type, if it is registered. -/
  valueType : Option (Tagged ValueType)
  deriving Inhabited

/-- What follows from the declared definitions. -/
structure Index where
  /-- The tags and the links between them. -/
  taxonomy : Taxonomy := {}
  conditionTypes : Table ClassifiedType := {}
  actionTypes : Table (Tagged ActionType) := {}
  valueTypes : Table (Tagged ValueType) := {}
  propertyTypes : Table IndexedProperty := {}
  /-- The condition types under every tag. -/
  conditionTypesByTag : Table IdSet := {}
  /-- The action types under every tag. -/
  actionTypesByTag : Table IdSet := {}
  /-- The value types under every tag. -/
  valueTypesByTag : Table IdSet := {}
  groups : Table IndexedGroup := {}
  /-- The property that an incoming name stands for. -/
  propertyMappings : Table String := {}
  deriving Inhabited

namespace Index

/-- The declared tags that are registered. -/
def resolvedTags (tags : Table Tag) (declared : IdSet) : IdSet := declared.filter tags.contains

/-- A condition type as the tags classify it. -/
def classify (tags : Table Tag) (t : ConditionType) : ClassifiedType :=
  let resolved := resolvedTags tags t.tagIds
  { type := t, resolvedTags := resolved, category := t.category resolved }

/-- The types of a table with their registered tags. -/
def tagged (tags : Table Tag) (declared : V → IdSet) (table : Table V) : Table (Tagged V) :=
  table.map fun _ t => { type := t, resolvedTags := resolvedTags tags (declared t) }

/-- A property type as the tags and value types complete it. -/
def complete (tags : Table Tag) (valueTypes : Table (Tagged ValueType)) (t : PropertyType) :
    IndexedProperty where
  type := t
  resolvedTags := resolvedTags tags t.tagIds
  valueType := valueTypes.get? t.valueTypeId

/-- Add an id under a tag. -/
def noteTag (id : String) (index : Table IdSet) (tag : String) : Table IdSet :=
  index.insert tag (((index.get? tag).getD .empty).insert id)

/-- The ids of a table under every registered tag. -/
def byTag (tags : Table Tag) (declared : V → IdSet) (table : Table V) : Table IdSet :=
  table.entries.foldl (fun index (id, value) =>
    (resolvedTags tags (declared value)).toList.foldl (noteTag id) index) {}

/-- The tags that the entries of a table declare in vain. -/
def unknownTags (kind : DefinitionKind) (tags : Table Tag) (declared : V → IdSet)
    (table : Table V) : List UnresolvedReference :=
  table.entries.flatMap fun (owner, value) =>
    ((declared value).toList.filter fun tag => !tags.contains tag).map fun reference =>
      { kind, owner, reference }

/-- Put a property type into its group, which is made up if it is not declared. -/
def addMember (groups : Table IndexedGroup) (t : PropertyType) : Table IndexedGroup :=
  let group := (groups.get? t.groupId).getD { group := { id := t.groupId }, implicit := true }
  groups.insert t.groupId { group with members := group.members.insert t.id }

/-- Map the names that a property type stands for. -/
def addMappings (mappings : Table String) (t : PropertyType) : Table String :=
  t.mappingsFrom.foldl (fun acc name => acc.insert name t.id) mappings

/-- The index of declared definitions. -/
def ofDefinitions (d : Definitions) : Index where
  taxonomy := (({ tags := d.tags } : Taxonomy).rebuild).1
  conditionTypes := d.conditionTypes.map fun _ t => classify d.tags t
  actionTypes := tagged d.tags ActionType.tagIds d.actionTypes
  valueTypes := tagged d.tags ValueType.tagIds d.valueTypes
  propertyTypes := d.propertyTypes.map fun _ t =>
    complete d.tags (tagged d.tags ValueType.tagIds d.valueTypes) t
  conditionTypesByTag := byTag d.tags ConditionType.tagIds d.conditionTypes
  actionTypesByTag := byTag d.tags ActionType.tagIds d.actionTypes
  valueTypesByTag := byTag d.tags ValueType.tagIds d.valueTypes
  groups := d.propertyTypes.values.foldl addMember
    (d.propertyGroups.map fun _ group => { group })
  propertyMappings := d.propertyTypes.values.foldl addMappings {}

end Index

namespace IndexReport

/-- What indexing some definitions has to drop or mend. -/
def ofDefinitions (d : Definitions) : IndexReport where
  taxonomy := (({ tags := d.tags } : Taxonomy).rebuild).2
  unresolved :=
    Index.unknownTags .conditionType d.tags ConditionType.tagIds d.conditionTypes
    ++ Index.unknownTags .actionType d.tags ActionType.tagIds d.actionTypes
    ++ Index.unknownTags .valueType d.tags ValueType.tagIds d.valueTypes
    ++ Index.unknownTags .propertyType d.tags PropertyType.tagIds d.propertyTypes
    ++ (d.propertyTypes.values.filter fun t => !d.valueTypes.contains t.valueTypeId).map fun t =>
      { kind := .propertyType, owner := t.id, reference := t.valueTypeId }

/-- The report as log lines, as far as it concerns some definitions. -/
def lines (report : IndexReport) (concerns : DefinitionKind → String → Bool) : List LogLine :=
  ((report.unresolved.filter fun r => concerns r.kind r.owner).map fun r =>
    .warning ("unknown reference '" ++ r.reference ++ "' in " ++ r.kind.text ++ " '" ++ r.owner
      ++ "', dropped"))
  ++ ((report.taxonomy.orphans.filter (concerns .tag)).map fun id =>
    .warning ("tag '" ++ id ++ "' has an unknown parent, treating it as a root"))
  ++ ((report.taxonomy.cycles.filter fun cycle => cycle.any (concerns .tag)).map fun cycle =>
    .failure ("tag hierarchy contains a cycle through " ++ Text.quotedList cycle))

end IndexReport

end Clickstream
