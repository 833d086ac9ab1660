import Clickstream.Tag

/-! # The types that modules contribute

Condition, action, value and property types and the groups of properties, as their documents
declare them. What follows from the other registered definitions (which of the declared tags exist,
which category a condition type falls into) is worked out by the registry and is no part of them.
-/

namespace Clickstream

/-- A declared parameter of a condition or action type. -/
structure Parameter where
  id : String
  /-- The id of its value type. -/
  valueType : String
  /-- Whether it takes a list. -/
  multivalued : Bool := false
  /-- The value to take when none is given. -/
  defaultValue : Option Json := none
  deriving Inhabited

namespace Parameter

def ofDocument? (d : Document) : Option Parameter := do
  match ← d.record? [["id"], ["type"], ["multivalued"], ["defaultValue"]] with
  | [id, valueType, multivalued, defaultValue] =>
    return {
      id := ← Document.required Document.string? id
      valueType := ← Document.required Document.string? valueType
      multivalued := ← Document.defaulting false Document.bool? multivalued
      defaultValue := ← Document.optional Document.value? defaultValue }
  | _ => none

def toJson (p : Parameter) : Json :=
  .object <| [("id", .string p.id), ("type", .string p.valueType),
      ("multivalued", .bool p.multivalued)]
    ++ Json.optionalField "defaultValue" p.defaultValue

end Parameter

/-- How a condition type is evaluated. -/
inductive Category where
  /-- Against the events of a session. -/
  | event
  /-- Against the profile. -/
  | profile
  /-- Against the session. -/
  | session
  /-- By combining sub-conditions. -/
  | logical
  /-- Not at all. -/
  | unclassified
  deriving DecidableEq

instance : Inhabited Category := ⟨.unclassified⟩

namespace Category

def text : Category → String
  | event => "event"
  | profile => "profile"
  | session => "session"
  | logical => "logical"
  | unclassified => "unclassified"

/-- The category that a word names. -/
def ofText? : String → Option Category
  | "event" => some event
  | "profile" => some profile
  | "session" => some session
  | "logical" => some logical
  | "unclassified" => some unclassified
  | _ => none

/-- The category that some tags stand for: event before profile before session before logical. -/
def ofTags (tags : IdSet) : Category :=
  if tags.contains "eventCondition" then event
  else if tags.contains "profileCondition" || tags.contains "userCondition" then profile
  else if tags.contains "sessionCondition" then session
  else if tags.contains "logicalCondition" then logical
  else unclassified

end Category

inductive BooleanOperator where
  /-- All of them. -/
  | and
  /-- One of them. -/
  | or
  deriving DecidableEq, Inhabited

namespace BooleanOperator

def text : BooleanOperator → String
  | and => "and"
  | or => "or"

/-- The operator that a lower-case word names. -/
def ofText? : String → Option BooleanOperator
  | "and" => some and
  | "or" => some or
  | _ => none

/-- The operator that a word names in any case. -/
def parse? (word : String) : Option BooleanOperator := ofText? (word.map Char.toLower)

end BooleanOperator

structure ConditionType where
  id : String
  /-- Overrides the localization key of the name. -/
  nameKey : Option String := none
  /-- Overrides the localization key of the description. -/
  descriptionKey : Option String := none
  tagIds : IdSet := {}
  declaredCategory : Option Category := none
  /-- The predicate that implements it, if not the one of its own id. -/
  declaredEvaluator : Option String := none
  /-- How it combines sub-conditions by default. -/
  operator : Option BooleanOperator := none
  parameters : List Parameter := []
  moduleId : Option ModuleId := none
  deriving Inhabited

namespace ConditionType

/-- The name of the predicate that implements the type. -/
def evaluator (t : ConditionType) : String := t.declaredEvaluator.getD t.id

/-- The declared category, else that of the tags that are registered, else of all declared tags. -/
def category (t : ConditionType) (resolvedTags : IdSet) : Category :=
  t.declaredCategory.getD <|
    match Category.ofTags resolvedTags with
    | .unclassified => Category.ofTags t.tagIds
    | category => category

def ofDocument? (d : Document) : Option ConditionType := do
  match ← d.record? [["id"], ["nameKey"], ["descriptionKey"], ["tags"], ["category"],
      ["conditionEvaluator"], ["operator"], ["parameters"]] with
  | [id, nameKey, descriptionKey, tags, category, evaluator, operator, parameters] =>
    return {
      id := ← Document.required Document.string? id
      nameKey := ← Document.optional Document.string? nameKey
      descriptionKey := ← Document.optional Document.string? descriptionKey
      tagIds := ← Document.defaulting {} Document.idSet? tags
      declaredCategory := ← Document.optional (Document.word? Category.ofText?) category
      declaredEvaluator := ← Document.optional Document.string? evaluator
      operator := ← Document.optional (Document.word? BooleanOperator.ofText?) operator
      parameters := ← Document.defaulting [] (Document.list? Parameter.ofDocument?) parameters }
  | _ => none

def toJson (t : ConditionType) : Json :=
  .object <| [("id", .string t.id)]
    ++ Json.optionalField "nameKey" (t.nameKey.map .string)
    ++ Json.optionalField "descriptionKey" (t.descriptionKey.map .string)
    ++ [("tags", Json.ofStrings t.tagIds.toList)]
    ++ Json.optionalField "category" (t.declaredCategory.map fun c => .string c.text)
    ++ Json.optionalField "conditionEvaluator" (t.declaredEvaluator.map .string)
    ++ Json.optionalField "operator" (t.operator.map fun o => .string o.text)
    ++ [("parameters", .array (t.parameters.map Parameter.toJson))]

end ConditionType

/-- A condition type as the registry classifies it. -/
structure ClassifiedType where
  type : ConditionType
  /-- The declared tags that are registered. -/
  resolvedTags : IdSet
  category : Category
  deriving Inhabited

structure ActionType where
  id : String
  /-- Overrides the localization key of the name. -/
  nameKey : Option String := none
  tagIds : IdSet := {}
  /-- What carries the action out. -/
  executor : Option String := none
  parameters : List Parameter := []
  moduleId : Option ModuleId := none
  deriving Inhabited

namespace ActionType

def ofDocument? (d : Document) : Option ActionType := do
  match ← d.record? [["id"], ["nameKey"], ["tags"], ["actionExecutor"], ["parameters"]] with
  | [id, nameKey, tags, executor, parameters] =>
    return {
      id := ← Document.required Document.string? id
      nameKey := ← Document.optional Document.string? nameKey
      tagIds := ← Document.defaulting {} Document.idSet? tags
      executor := ← Document.optional Document.string? executor
      parameters := ← Document.defaulting [] (Document.list? Parameter.ofDocument?) parameters }
  | _ => none

def toJson (t : ActionType) : Json :=
  .object <| [("id", .string t.id)]
    ++ Json.optionalField "nameKey" (t.nameKey.map .string)
    ++ [("tags", Json.ofStrings t.tagIds.toList)]
    ++ Json.optionalField "actionExecutor" (t.executor.map .string)
    ++ [("parameters", .array (t.parameters.map Parameter.toJson))]

end ActionType

structure ValueType where
  id : String
  /-- Overrides the localization key of the name. -/
  nameKey : Option String := none
  tagIds : IdSet := {}
  moduleId : Option ModuleId := none
  deriving Inhabited

namespace ValueType

def ofDocument? (d : Document) : Option ValueType := do
  match ← d.record? [["id"], ["nameKey"], ["tags"]] with
  | [id, nameKey, tags] =>
    return {
      id := ← Document.required Document.string? id
      nameKey := ← Document.optional Document.string? nameKey
      tagIds := ← Document.defaulting {} Document.idSet? tags }
  | _ => none

def toJson (t : ValueType) : Json :=
  .object <| [("id", .string t.id)]
    ++ Json.optionalField "nameKey" (t.nameKey.map .string)
    ++ [("tags", Json.ofStrings t.tagIds.toList)]

end ValueType

/-- A property of profiles or sessions. -/
structure PropertyType where
  id : String
  /-- Overrides the localization key of the name. -/
  nameKey : Option String := none
  valueTypeId : String
  /-- The group it belongs to. -/
  groupId : String := "default"
  rank : Float := 0.0
  tagIds : IdSet := {}
  /-- Incoming names that stand for this property. -/
  mappingsFrom : List String := []
  moduleId : Option ModuleId := none
  deriving Inhabited

namespace PropertyType

def ofDocument? (d : Document) : Option PropertyType := do
  match ← d.record? [["id"], ["nameKey"], ["type"], ["groupId"], ["rank"], ["tags"],
      ["automaticMappingsFrom"]] with
  | [id, nameKey, valueType, groupId, rank, tags, mappings] =>
    return {
      id := ← Document.required Document.string? id
      nameKey := ← Document.optional Document.string? nameKey
      valueTypeId := ← Document.required Document.string? valueType
      groupId := ← Document.defaulting "default" Document.string? groupId
      rank := ← Document.defaulting 0.0 Document.double? rank
      tagIds := ← Document.defaulting {} Document.idSet? tags
      mappingsFrom := ← Document.defaulting [] (Document.list? Document.string?) mappings }
  | _ => none

def toJson (t : PropertyType) : Json :=
  .object <| [("id", .string t.id)]
    ++ Json.optionalField "nameKey" (t.nameKey.map .string)
    ++ [("type", .string t.valueTypeId), ("groupId", .string t.groupId),
      ("rank", .number (.double t.rank)), ("tags", Json.ofStrings t.tagIds.toList),
      ("automaticMappingsFrom", Json.ofStrings t.mappingsFrom)]

end PropertyType

/-- A declared group of property types. -/
structure PropertyGroup where
  id : String
  rank : Float := 0.0
  moduleId : Option ModuleId := none
  deriving Inhabited

namespace PropertyGroup

def ofDocument? (d : Document) : Option PropertyGroup := do
  match ← d.record? [["id"], ["rank"]] with
  | [id, rank] =>
    return {
      id := ← Document.required Document.string? id
      rank := ← Document.defaulting 0.0 Document.double? rank }
  | _ => none

def toJson (g : PropertyGroup) : Json :=
  .object [("id", .string g.id), ("rank", .number (.double g.rank))]

end PropertyGroup

end Clickstream
