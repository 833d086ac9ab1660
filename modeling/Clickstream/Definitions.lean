import Clickstream.Vocabulary
import Clickstream.Module

/-! # Definitions

What modules have declared: a table of each kind of definition, each under its own id and each with
the module that owns it. Applying a batch puts definitions in place of those with the same ids,
whoever owns these; retracting a module drops what it owns.
-/

namespace Clickstream

inductive DefinitionKind where
  | tag
  | conditionType
  | actionType
  | valueType
  | propertyType
  /-- A group of property types. -/
  | propertyGroup
  deriving DecidableEq

def DefinitionKind.all : List DefinitionKind :=
  [tag, conditionType, actionType, valueType, propertyType, propertyGroup]

def DefinitionKind.text : DefinitionKind → String
  | tag => "tag"
  | conditionType => "condition type"
  | actionType => "action type"
  | valueType => "value type"
  | propertyType => "property type"
  | propertyGroup => "property type group"

/-- The ids of definitions, kind by kind. -/
structure Contributions where
  tags : IdSet := {}
  conditionTypes : IdSet := {}
  actionTypes : IdSet := {}
  valueTypes : IdSet := {}
  propertyTypes : IdSet := {}
  propertyGroups : IdSet := {}
  deriving DecidableEq, Inhabited

namespace Contributions

/-- The ids of one kind. -/
def ids (c : Contributions) : DefinitionKind → IdSet
  | .tag => c.tags
  | .conditionType => c.conditionTypes
  | .actionType => c.actionTypes
  | .valueType => c.valueTypes
  | .propertyType => c.propertyTypes
  | .propertyGroup => c.propertyGroups

/-- Whether a definition is among them. -/
def contains (c : Contributions) (kind : DefinitionKind) (id : String) : Bool :=
  (c.ids kind).contains id

/-- Whether there are none of any kind. -/
def isEmpty (c : Contributions) : Bool :=
  c.tags.isEmpty && c.conditionTypes.isEmpty && c.actionTypes.isEmpty && c.valueTypes.isEmpty
    && c.propertyTypes.isEmpty && c.propertyGroups.isEmpty

def toJson (c : Contributions) : Json :=
  .object [("tags", Json.ofStrings c.tags.toList),
    ("conditionTypes", Json.ofStrings c.conditionTypes.toList),
    ("actionTypes", Json.ofStrings c.actionTypes.toList),
    ("valueTypes", Json.ofStrings c.valueTypes.toList),
    ("propertyTypes", Json.ofStrings c.propertyTypes.toList),
    ("propertyGroups", Json.ofStrings c.propertyGroups.toList)]

/-- Those that the second lacks. -/
def diff (a b : Contributions) : Contributions where
  tags := a.tags.diff b.tags
  conditionTypes := a.conditionTypes.diff b.conditionTypes
  actionTypes := a.actionTypes.diff b.actionTypes
  valueTypes := a.valueTypes.diff b.valueTypes
  propertyTypes := a.propertyTypes.diff b.propertyTypes
  propertyGroups := a.propertyGroups.diff b.propertyGroups

end Contributions

/-- Definitions to be put in, in order. -/
structure Batch where
  tags : List Tag := []
  conditionTypes : List ConditionType := []
  actionTypes : List ActionType := []
  valueTypes : List ValueType := []
  propertyTypes : List PropertyType := []
  propertyGroups : List PropertyGroup := []

structure Definitions where
  tags : Table Tag := {}
  conditionTypes : Table ConditionType := {}
  actionTypes : Table ActionType := {}
  valueTypes : Table ValueType := {}
  propertyTypes : Table PropertyType := {}
  propertyGroups : Table PropertyGroup := {}
  deriving Inhabited

/-- The entries of a table that a module owns. -/
def Table.ownedBy (table : Table V) (owner : V → Option ModuleId) (module : ModuleId) : Table V :=
  table.filter fun _ value => owner value = some module

/-- The entries of a table that a module does not own. -/
def Table.withoutOwner (table : Table V) (owner : V → Option ModuleId) (module : ModuleId) :
    Table V :=
  table.filter fun _ value => owner value ≠ some module

namespace Definitions

/-- Everything that a module owns. -/
def contributions (d : Definitions) (module : ModuleId) : Contributions where
  tags := (d.tags.ownedBy Tag.moduleId module).idSet
  conditionTypes := (d.conditionTypes.ownedBy ConditionType.moduleId module).idSet
  actionTypes := (d.actionTypes.ownedBy ActionType.moduleId module).idSet
  valueTypes := (d.valueTypes.ownedBy ValueType.moduleId module).idSet
  propertyTypes := (d.propertyTypes.ownedBy PropertyType.moduleId module).idSet
  propertyGroups := (d.propertyGroups.ownedBy PropertyGroup.moduleId module).idSet

/-- Drop everything that a module owns. -/
def retract (d : Definitions) (module : ModuleId) : Definitions where
  tags := d.tags.withoutOwner Tag.moduleId module
  conditionTypes := d.conditionTypes.withoutOwner ConditionType.moduleId module
  actionTypes := d.actionTypes.withoutOwner ActionType.moduleId module
  valueTypes := d.valueTypes.withoutOwner ValueType.moduleId module
  propertyTypes := d.propertyTypes.withoutOwner PropertyType.moduleId module
  propertyGroups := d.propertyGroups.withoutOwner PropertyGroup.moduleId module

/-- Put in a batch; of equal ids the last stays. -/
def apply (d : Definitions) (batch : Batch) : Definitions where
  tags := d.tags.insertAll (batch.tags.map fun t => (t.id, t))
  conditionTypes := d.conditionTypes.insertAll (batch.conditionTypes.map fun t => (t.id, t))
  actionTypes := d.actionTypes.insertAll (batch.actionTypes.map fun t => (t.id, t))
  valueTypes := d.valueTypes.insertAll (batch.valueTypes.map fun t => (t.id, t))
  propertyTypes := d.propertyTypes.insertAll (batch.propertyTypes.map fun t => (t.id, t))
  propertyGroups := d.propertyGroups.insertAll (batch.propertyGroups.map fun g => (g.id, g))

/-- Fill the part of a batch that a namespace stands for with what a module owns of it. -/
def carryOver (d : Definitions) (module : ModuleId) (batch : Batch) : Namespace → Batch
  | .tags => { batch with tags := (d.tags.ownedBy Tag.moduleId module).values }
  | .conditions => { batch with
      conditionTypes := (d.conditionTypes.ownedBy ConditionType.moduleId module).values }
  | .actions => { batch with
      actionTypes := (d.actionTypes.ownedBy ActionType.moduleId module).values }
  | .values => { batch with
      valueTypes := (d.valueTypes.ownedBy ValueType.moduleId module).values }
  | .properties => { batch with
      propertyTypes := (d.propertyTypes.ownedBy PropertyType.moduleId module).values
      propertyGroups := (d.propertyGroups.ownedBy PropertyGroup.moduleId module).values }
  | .mappings => batch
  | .goals => batch

end Definitions

end Clickstream
