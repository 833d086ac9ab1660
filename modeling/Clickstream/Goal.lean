import Clickstream.Entity

/-! # Goals and rules

A goal is a funnel from a start condition to a target condition. While it is enabled, two hidden
rules stamp its progress on the session: each rule fires on one condition and sets one property,
whose name is made of the id of the goal and the step.
-/

namespace Clickstream

/-- What goals and rules say about themselves. -/
structure Metadata where
  id : String
  name : String := ""
  description : String := ""
  /-- Whether it is in effect. -/
  enabled : Bool := true
  /-- Not for display. -/
  hidden : Bool := false
  moduleId : Option ModuleId := none
  deriving DecidableEq, Inhabited

namespace Metadata

def ofDocument? (d : Document) : Option Metadata := do
  match ← d.record? [["id"], ["name"], ["description"], ["enabled"], ["hidden"], ["moduleId"]] with
  | [id, name, description, enabled, hidden, moduleId] =>
    return {
      id := ← Document.required Document.string? id
      name := ← Document.defaulting "" Document.string? name
      description := ← Document.defaulting "" Document.string? description
      enabled := ← Document.defaulting true Document.bool? enabled
      hidden := ← Document.defaulting false Document.bool? hidden
      moduleId := ← Document.optional Document.string? moduleId }
  | _ => none

def toJson (m : Metadata) : Json :=
  .object <| [("id", .string m.id), ("name", .string m.name),
      ("description", .string m.description), ("enabled", .bool m.enabled),
      ("hidden", .bool m.hidden)]
    ++ Json.optionalField "moduleId" (m.moduleId.map .string)

end Metadata

structure Goal where
  metadata : Metadata
  /-- When a session enters the funnel. -/
  startEvent : Option Condition := none
  /-- When a session reaches the goal. -/
  targetEvent : Option Condition := none
  deriving Inhabited

/-- A step of the funnel. -/
inductive FunnelStep where
  /-- Entering. -/
  | start
  /-- Reaching the goal. -/
  | target
  deriving DecidableEq

namespace FunnelStep

def all : List FunnelStep := [start, target]

def text : FunnelStep → String
  | start => "start"
  | target => "target"

/-- The id of the rule that stamps the step of a goal. -/
def ruleId (step : FunnelStep) (goalId : String) : String := goalId ++ "." ++ step.text ++ "Event"

/-- The session property that the rule sets. -/
def reachedProperty (step : FunnelStep) (goalId : String) : String :=
  goalId ++ "." ++ step.text ++ ".reached"

end FunnelStep

namespace Goal

def id (g : Goal) : String := g.metadata.id

/-- The conditions that are there, with their steps. -/
def events (g : Goal) : List (FunnelStep × Condition) :=
  (g.startEvent.map (FunnelStep.start, ·)).toList ++
    (g.targetEvent.map (FunnelStep.target, ·)).toList

/-- Every condition type that the goal refers to. -/
def typeIds (g : Goal) : IdSet :=
  .ofList (g.events.flatMap fun (_, condition) => condition.typeIds.toList)

/-- Whether the goal refers to one of some condition types. -/
def referencesAny (g : Goal) (ids : IdSet) : Bool :=
  g.events.any fun (_, condition) => condition.referencesAny ids

def ofDocument? (d : Document) : Option Goal := do
  match ← d.record? [["metadata"], ["startEvent"], ["targetEvent"]] with
  | [metadata, startEvent, targetEvent] =>
    return {
      metadata := ← Document.required Metadata.ofDocument? metadata
      startEvent := ← Document.optional Condition.ofDocument? startEvent
      targetEvent := ← Document.optional Condition.ofDocument? targetEvent }
  | _ => none

def fields (g : Goal) : List (String × Json) :=
  [("metadata", g.metadata.toJson)]
    ++ Json.optionalField "startEvent" (g.startEvent.map Condition.toJson)
    ++ Json.optionalField "targetEvent" (g.targetEvent.map Condition.toJson)

def toJson (g : Goal) : Json := .object g.fields

instance : Entity Goal where
  itemType := "goal"
  id := Goal.id
  fields := fields
  ofDocument? := ofDocument?

end Goal

/-- What a rule does when it fires. -/
structure Action where
  typeId : String
  parameters : Fields Json := []
  deriving Inhabited

namespace Action

def ofDocument? (d : Document) : Option Action := do
  match ← d.record? [["type", "actionTypeId"], ["parameterValues"]] with
  | [typeId, parameters] =>
    return {
      typeId := ← Document.required Document.string? typeId
      parameters := ← Document.defaulting [] Document.fields? parameters }
  | _ => none

def toJson (a : Action) : Json :=
  .object [("type", .string a.typeId), ("parameterValues", .object a.parameters)]

def withParameter (a : Action) (name : String) (value : Json) : Action :=
  { a with parameters := a.parameters.insert name value }

end Action

/-- A condition with the actions to take when it holds. -/
structure Rule where
  metadata : Metadata
  condition : Condition
  actions : List Action := []
  deriving Inhabited

namespace Rule

def id (r : Rule) : String := r.metadata.id

def ofDocument? (d : Document) : Option Rule := do
  match ← d.record? [["metadata"], ["condition"], ["actions"]] with
  | [metadata, condition, actions] =>
    return {
      metadata := ← Document.required Metadata.ofDocument? metadata
      condition := ← Document.required Condition.ofDocument? condition
      actions := ← Document.defaulting [] (Document.list? Action.ofDocument?) actions }
  | _ => none

def fields (r : Rule) : List (String × Json) :=
  [("metadata", r.metadata.toJson), ("condition", r.condition.toJson),
    ("actions", .array (r.actions.map Action.toJson))]

def toJson (r : Rule) : Json := .object r.fields

instance : Entity Rule where
  itemType := "rule"
  id := Rule.id
  fields := fields
  ofDocument? := ofDocument?

/-- The rule that stamps a step of a goal. -/
def ofGoalStep (g : Goal) (actionType : String) (step : FunnelStep) (condition : Condition) :
    Rule where
  metadata :=
    { id := step.ruleId g.id
      name := "Auto generated rule for goal " ++ g.metadata.name
      hidden := true }
  condition := { condition with resolved := none }
  actions :=
    [({ typeId := actionType } : Action)
      |>.withParameter "setPropertyName" (.string (step.reachedProperty g.id))
      |>.withParameter "setPropertyValue" (.string "now")
      |>.withParameter "storeInSession" (.bool true)]

end Rule

end Clickstream
