import Clickstream.Registry.Index
import Clickstream.Condition

/-! # The registry

The declared definitions, their index, and the number of changes so far. Every change makes a whole
new registry, so whoever holds on to one keeps a consistent view.
-/

namespace Clickstream

/-- All definitions at one time. -/
structure Registry where
  /-- The number of changes so far. -/
  generation : Nat := 0
  definitions : Definitions := {}
  index : Index := {}
  deriving Inhabited

/-- The order of things that have a rank and an id. -/
def rankedLe (rank : α → Float) (id : α → String) (a b : α) : Bool :=
  let x := Decimal.orderKey (rank a)
  let y := Decimal.orderKey (rank b)
  x < y ∨ (x = y ∧ id a ≤ id b)

namespace Registry

def publish (r : Registry) (definitions : Definitions) : Registry where
  generation := r.generation + 1
  definitions := definitions
  index := Index.ofDefinitions definitions

/-- The next registry after one definition of a kind was put in, and what that is to be told of. -/
def register (r : Registry) (batch : Batch) (kind : DefinitionKind) (id : String) :
    Logged Registry :=
  let definitions := r.definitions.apply batch
  { value := r.publish definitions
    lines := (IndexReport.ofDefinitions definitions).lines fun k owner => k = kind ∧ owner = id }

def registerTag (r : Registry) (t : Tag) : Logged Registry :=
  r.register { tags := [t] } .tag t.id

/-- Put in a condition type. -/
def registerConditionType (r : Registry) (t : ConditionType) : Logged Registry :=
  r.register { conditionTypes := [t] } .conditionType t.id

/-- Put in an action type. -/
def registerActionType (r : Registry) (t : ActionType) : Logged Registry :=
  r.register { actionTypes := [t] } .actionType t.id

/-- Put in a value type. -/
def registerValueType (r : Registry) (t : ValueType) : Logged Registry :=
  r.register { valueTypes := [t] } .valueType t.id

/-- Put in a property type. -/
def registerPropertyType (r : Registry) (t : PropertyType) : Logged Registry :=
  r.register { propertyTypes := [t] } .propertyType t.id

/-- The tags and the links between them. -/
def taxonomy (r : Registry) : Taxonomy := r.index.taxonomy

/-- Declared tags that are registered. -/
def resolvedTags (r : Registry) (declared : IdSet) : IdSet :=
  Index.resolvedTags r.definitions.tags declared

/-- A condition type as it is classified here. -/
def classify (r : Registry) (t : ConditionType) : ClassifiedType :=
  Index.classify r.definitions.tags t

/-- The condition type of an id. -/
def conditionType? (r : Registry) (id : String) : Option ClassifiedType :=
  r.index.conditionTypes.get? id

/-- The action type of an id. -/
def actionType? (r : Registry) (id : String) : Option (Tagged ActionType) :=
  r.index.actionTypes.get? id

/-- The value type of an id. -/
def valueType? (r : Registry) (id : String) : Option (Tagged ValueType) :=
  r.index.valueTypes.get? id

/-- The property type of an id. -/
def propertyType? (r : Registry) (id : String) : Option IndexedProperty :=
  r.index.propertyTypes.get? id

/-- The predicate of each registered condition type. -/
def evaluatorNames (r : Registry) (id : String) : Option String :=
  (r.definitions.conditionTypes.get? id).map ConditionType.evaluator

/-- The value type of a registered property type, if that is registered too. -/
def valueTypeOf? (r : Registry) (t : PropertyType) : Option ValueType :=
  ((r.propertyType? t.id).bind IndexedProperty.valueType).map Tagged.type

/-- The entries of a table that stand under a tag, or also under the tags below it, by id. -/
def underTag (r : Registry) (table : Table V) (byTag : Table IdSet) (tag : String)
    (recursive : Bool) : List (String × V) :=
  let tags := if recursive then (r.taxonomy.descendantsAndSelf tag).toList else [tag]
  let ids := IdSet.ofList (tags.flatMap fun tag => ((byTag.get? tag).getD .empty).toList)
  ids.toList.filterMap fun id => (table.get? id).map (id, ·)

/-- The condition types under a tag. -/
def conditionTypesByTag (r : Registry) (tag : String) (recursive : Bool) :
    List (String × ConditionType) :=
  r.underTag r.definitions.conditionTypes r.index.conditionTypesByTag tag recursive

/-- The action types under a tag. -/
def actionTypesByTag (r : Registry) (tag : String) (recursive : Bool) :
    List (String × ActionType) :=
  r.underTag r.definitions.actionTypes r.index.actionTypesByTag tag recursive

/-- The value types under a tag. -/
def valueTypesByTag (r : Registry) (tag : String) (recursive : Bool) : List (String × ValueType) :=
  r.underTag r.definitions.valueTypes r.index.valueTypesByTag tag recursive

/-- All property types, by rank and id. -/
def propertyTypes (r : Registry) : List PropertyType :=
  r.definitions.propertyTypes.values.mergeSort (rankedLe PropertyType.rank PropertyType.id)

/-- All groups, by rank and id. -/
def groups (r : Registry) : List IndexedGroup :=
  r.index.groups.values.mergeSort (rankedLe (·.group.rank) (·.group.id))

/-- The property types of a group. -/
def groupMembers? (r : Registry) (groupId : String) : Option (List PropertyType) :=
  (r.index.groups.get? groupId).map fun group =>
    group.members.toList.filterMap r.definitions.propertyTypes.get?

/-- The property that an incoming name stands for. -/
def propertyMapping? (r : Registry) (name : String) : Option String :=
  r.index.propertyMappings.get? name

/-- Everything that a module contributes. -/
def contributions (r : Registry) (module : ModuleId) : Contributions :=
  r.definitions.contributions module

end Registry

/-- A condition refers to a condition type that is not registered. -/
structure UnknownConditionType where
  /-- The id of the type. -/
  id : String
  deriving DecidableEq

def UnknownConditionType.message (e : UnknownConditionType) : String :=
  "unknown condition type '" ++ e.id ++ "'"

/-- Look up the type of a condition, all types inside it having to be registered too. -/
def Condition.resolve (r : Registry) (c : Condition) : Except UnknownConditionType Condition :=
  match c.typeIds.toList.find? fun id => !r.definitions.conditionTypes.contains id with
  | some id => .error ⟨id⟩
  | none => .ok { c with resolved := r.conditionType? c.typeId }

end Clickstream
