import Clickstream.Engine
import Clickstream.Report

/-! # Keeping goals

Goals are saved with the rules that stamp their progress: an enabled goal with both conditions has
two rules, every other goal none. Predefined goals of modules are installed once all the types they
need are registered, and wait until then. When condition types go away, the goals that use them are
disabled.
-/

namespace Clickstream

inductive GoalError where
  /-- A condition of the goal refers to a type that is not registered. -/
  | unresolvedCondition (goalId : String) (cause : UnknownConditionType)
  /-- The action type of the rules of goals is not registered. -/
  | missingActionType (id : String)
  | store (e : StoreError)
  /-- There is no such goal. -/
  | notFound (goalId : String)

def GoalError.message : GoalError → String
  | unresolvedCondition goalId cause =>
    "goal '" ++ goalId ++ "' has an unresolvable condition: " ++ cause.message
  | missingActionType id =>
    "action type '" ++ id ++ "' is not registered, cannot compile goal rules"
  | store e => "store error: " ++ e.message
  | notFound goalId => "goal not found: " ++ goalId

namespace Goal

/-- Look up the types of both conditions. -/
def resolve (r : Registry) (g : Goal) : Except UnknownConditionType Goal := do
  return { g with
    startEvent := ← g.startEvent.mapM (Condition.resolve r)
    targetEvent := ← g.targetEvent.mapM (Condition.resolve r) }

/-- Look up the type of a condition if that can be done. -/
def resolveEvent (r : Registry) (goalId : String) (c : Condition) : Logged Condition :=
  match c.resolve r with
  | .ok resolved => pure resolved
  | .error e => do
    .write (.warning ("goal '" ++ goalId ++ "' loaded with an unresolved condition: "
      ++ e.message))
    return c

/-- Look up the types of those conditions for which it can be done. -/
def resolveWhatCanBe (r : Registry) (goalId : String) (g : Goal) : Logged Goal := do
  return { g with
    startEvent := ← g.startEvent.mapM (resolveEvent r goalId)
    targetEvent := ← g.targetEvent.mapM (resolveEvent r goalId) }

/-- Whether the goal is in effect and has both conditions, and so has rules. -/
def isCompiled (g : Goal) : Bool :=
  g.metadata.enabled && g.startEvent.isSome && g.targetEvent.isSome

/-- The rules of a goal that is compiled. -/
def rules (g : Goal) (actionType : String) : List Rule :=
  g.events.map fun (step, condition) => Rule.ofGoalStep g actionType step condition

end Goal

namespace Goals

abbrev GoalOperation := Operation GoalError

/-- An operation on the store as one on goals. -/
def ofStore (operation : Operation StoreError α) : GoalOperation α :=
  ExceptT.adapt GoalError.store operation

def saveEntity [Entity α] (entity : α) : GoalOperation Unit :=
  ofStore (Operation.save (Item.ofEntity entity))

/-- Take back the rules of a goal. -/
def retractRules (goalId : String) : GoalOperation Unit :=
  FunnelStep.all.forM fun step => do
    let _ ← ofStore (Operation.remove "rule" (step.ruleId goalId))

/-- Create or replace a goal under an id. Nothing changes if one of its types is missing. -/
def setGoal (goalId : String) (goal : Goal) : GoalOperation Unit := do
  let goal := { goal with metadata := { goal.metadata with id := goalId } }
  let engine ← get
  match goal.resolve engine.registry with
  | .error e => throw (.unresolvedCondition goalId e)
  | .ok goal =>
    if goal.isCompiled then
      let actionType := engine.settings.setPropertyAction
      if !engine.registry.definitions.actionTypes.contains actionType then
        throw (.missingActionType actionType)
      (goal.rules actionType).forM saveEntity
    else retractRules goalId
    saveEntity goal

def createGoal (goalId name description : String) : GoalOperation Unit :=
  setGoal goalId { metadata := { id := goalId, name, description } }

def readEntity (α : Type) [Entity α] (item : Item) : GoalOperation α :=
  match item.toEntity α with
  | .ok entity => return entity
  | .error e => throw (.store e)

/-- A goal, its conditions resolved where that can be done. -/
def getGoal (goalId : String) : GoalOperation (Option Goal) := do
  let engine ← get
  match engine.store.load "goal" goalId with
  | none => return none
  | some item =>
    let goal ← readEntity Goal item
    let resolved := goal.resolveWhatCanBe engine.registry goalId
    Operation.log resolved.lines
    return some resolved.value

def allGoals : GoalOperation (List Goal) := do
  ((← get).store.all "goal").mapM (readEntity Goal)

/-- The metadata of all goals, by id. -/
def metadatas : GoalOperation (List Metadata) := do
  return ((← allGoals).map Goal.metadata).mergeSort fun a b => a.id ≤ b.id

/-- Delete a goal and its rules, and tell whether there was one. -/
def removeGoal (goalId : String) : GoalOperation Bool := do
  retractRules goalId
  ofStore (Operation.remove "goal" goalId)

/-! ## Rules -/

def setRule (rule : Rule) : GoalOperation Unit := saveEntity rule

def getRule (ruleId : String) : GoalOperation (Option Rule) := do
  ((← get).store.load "rule" ruleId).mapM (readEntity Rule)

def allRules : GoalOperation (List Rule) := do
  ((← get).store.all "rule").mapM (readEntity Rule)

/-- Delete a rule and tell whether there was one. -/
def removeRule (ruleId : String) : GoalOperation Bool :=
  ofStore (Operation.remove "rule" ruleId)

/-! ## Predefined goals -/

def park (candidate : PendingGoal) : GoalOperation Unit :=
  modify fun engine =>
    { engine with pending := engine.pending.insert candidate.goal.id candidate }

/-- A goal waits no longer. -/
def unpark (goalId : String) : GoalOperation Unit :=
  modify fun engine => { engine with pending := engine.pending.erase goalId }

/-- The goals of a module wait no longer. -/
def forgetGoals (module : ModuleId) : Operation ε Unit :=
  modify fun engine =>
    { engine with pending := engine.pending.filter fun _ p => p.module ≠ module }

/-- Install a predefined goal unless there is a goal with its id, and tell whether it was done. A
goal that lacks types waits for them. -/
def installGoal (candidate : PendingGoal) : GoalOperation Bool := do
  let goalId := candidate.goal.id
  if ((← get).store.load "goal" goalId).isSome then
    unpark goalId
    return false
  match ← ExceptT.lift (ExceptT.run (setGoal goalId candidate.goal)) with
  | .ok () =>
    unpark goalId
    return true
  | .error (.store e) => throw (.store e)
  | .error (.unresolvedCondition _ _) | .error (.missingActionType _) =>
    park candidate
    return false
  | .error e =>
    Operation.log [.failure ("cannot install predefined goal from " ++ candidate.origin ++ ": "
      ++ e.message)]
    unpark goalId
    return false

/-- The goal of a document that a module ships. -/
def candidate? (module : ModuleId) (document : SourceDocument) : Option PendingGoal :=
  ((Json.read? document.content).bind Goal.ofDocument?).map fun goal =>
    { module
      origin := document.origin
      goal := { goal with metadata := { goal.metadata with moduleId := some module } } }

/-- The goals that a module ships; documents that are none are reported and skipped. -/
def candidates (source : ModuleSource) : Logged (List PendingGoal) :=
  let listing := source.list .goals
  match listing.documents with
  | .error reason =>
    let failure := LoadFailure.source source.id .goals reason
    { value := []
      lines := listing.lines ++ [.failure ("cannot list goals of module '" ++ source.id ++ "': "
        ++ failure.message)] }
  | .ok documents =>
    { value := documents.filterMap (candidate? source.id)
      lines := listing.lines ++ (documents.filter fun d => (candidate? source.id d).isNone).map
        fun d => .failure ("error while loading goal definition " ++ d.origin
          ++ ": " ++ Document.misfit) }

/-- Install goals and list the ids of those that were. -/
def installGoals : List PendingGoal → GoalOperation (List String)
  | [] => return []
  | candidate :: rest => do
    let installed ← installGoal candidate
    let others ← installGoals rest
    return if installed then candidate.goal.id :: others else others

/-- Install the goals that a module ships, and then those that wait. -/
def loadGoals (source : ModuleSource) : GoalOperation (List String) := do
  forgetGoals source.id
  let shipped := candidates source
  Operation.log shipped.lines
  let waiting := (← get).pending.values
  let installed ← installGoals (shipped.value ++ waiting)
  return installed.mergeSort

def disable (goal : Goal) : GoalOperation Unit := do
  let goal := { goal with metadata := { goal.metadata with enabled := false } }
  retractRules goal.id
  saveEntity goal
  Operation.log [.warning ("disabled goal '" ++ goal.id
    ++ "': it references unloaded condition types")]

/-- Disable the goals in effect that use one of some condition types, and list their ids. -/
def disableUsing (ids : IdSet) : GoalOperation (List String) := do
  if ids.isEmpty then return []
  let affected := (← allGoals).filter fun goal => goal.metadata.enabled && goal.referencesAny ids
  affected.forM disable
  return (affected.map Goal.id).mergeSort

/-! ## Reports -/

/-- The sessions that entered the funnel of a goal, or reached its end, narrowed by a filter. -/
def population (settings : GoalSettings) (goalId : String) (reached : Bool)
    (filter : Option Condition) : Condition :=
  let goalMatch := ({ typeId := settings.goalMatchCondition } : Condition)
    |>.withParameter "goalId" (.string goalId)
    |>.withParameter "goalReached" (.bool reached)
  match filter with
  | none => goalMatch
  | some filter => ({ typeId := settings.andCondition } : Condition).withConditions
    "subConditions" [goalMatch, filter]

/-- Count the sessions of a population: all of them, by the date they began, or by a field. -/
def counts (engine : Engine) (population : Condition) (split : Option String) :
    Except StoreError BucketCounts :=
  match split with
  | none => do
    return [(filteredKey, ← engine.store.queryCount engine.names population "session")]
  | some "sessionCreationDate" =>
    engine.store.aggregate engine.names population (.dates engine.settings.dateInterval)
      engine.settings.sessionDateField "session"
  | some field => engine.store.aggregate engine.names population .terms field "session"

def report (engine : Engine) (goalId : String) (split : Option String)
    (filter : Option Condition) : Except GoalError GoalReport :=
  let count (reached : Bool) := counts engine (population engine.settings goalId reached filter) split
  match count false with
  | .error e => .error (.store e)
  | .ok start =>
    match count true with
    | .error e => .error (.store e)
    | .ok target => .ok (.ofCounts start target)

end Goals

end Clickstream
