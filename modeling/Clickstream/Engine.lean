import Clickstream.Evaluation
import Clickstream.Goal
import Clickstream.Registry.Load

/-! # The engine

The registry, the store and the goals that wait for definitions, as one state that operations
change. An operation that fails keeps what it had changed until then, so the order of the changes
matters and is part of each operation.
-/

namespace Clickstream

/-- The names of the definitions that goals rely on. -/
structure GoalSettings where
  /-- The action type of the rules of goals. -/
  setPropertyAction : String := "setPropertyAction"
  /-- The condition type that finds sessions by their progress. -/
  goalMatchCondition : String := "goalMatchCondition"
  /-- The condition type that narrows a report. -/
  andCondition : String := "andCondition"
  /-- The session field with the time a session began. -/
  sessionDateField : String := "timeStamp"
  /-- How wide the buckets of dates are. -/
  dateInterval : DateInterval := .day
  deriving DecidableEq, Inhabited

/-- A predefined goal that waits for definitions of a module not loaded yet. -/
structure PendingGoal where
  module : ModuleId
  /-- Where it comes from, for messages. -/
  origin : String
  goal : Goal
  deriving Inhabited

/-- The state of the program. -/
structure Engine where
  registry : Registry := {}
  store : Store := {}
  /-- Whether the store looks up predicates in the registry. -/
  storeKnowsRegistry : Bool := true
  settings : GoalSettings := {}
  /-- The predefined goals that wait, by goal id. -/
  pending : Table PendingGoal := {}
  deriving Inhabited

/-- An operation that may change the engine, write to the log and fail. -/
abbrev Operation (ε α : Type) := ExceptT ε (StateT Engine Logged) α

namespace Engine

/-- How the store names predicates. -/
def names (engine : Engine) : EvaluatorNames :=
  if engine.storeKnowsRegistry then engine.registry.evaluatorNames else fun _ => none

def run (engine : Engine) (operation : Operation ε α) : Logged (Except ε α × Engine) :=
  (ExceptT.run operation).run engine

/-- The facts for evaluating conditions of a profile in a session. -/
def facts (engine : Engine) (profile : Profile) (session : Session) : Facts where
  registry := engine.registry
  store := engine.store
  names := engine.names
  profile := Item.ofEntity profile
  session := Item.ofEntity session

end Engine

namespace Operation

def log (lines : List LogLine) : Operation ε Unit :=
  ExceptT.lift (StateT.lift { value := (), lines })

/-- Change the store by a function that leaves it alone when it fails. -/
def changeStore (change : Store → Except StoreError Store) : Operation StoreError Unit := do
  let engine ← get
  match change engine.store with
  | .ok store => set { engine with store }
  | .error e => throw e

def save (item : Item) : Operation StoreError Unit := changeStore (·.save item)

/-- Delete an item and tell whether there was one. -/
def remove (type id : String) : Operation StoreError Bool := do
  let engine ← get
  let (result, store) := engine.store.remove type id
  set { engine with store }
  match result with
  | .ok existed => return existed
  | .error e => throw e

def createMapping (type text : String) : Operation StoreError Unit :=
  changeStore (·.createMapping type text)

def changeRegistry (change : Registry → Logged Registry) : Operation ε Unit := do
  let engine ← get
  let changed := change engine.registry
  log changed.lines
  set { engine with registry := changed.value }

/-- Create the mappings that a module offers, one after the other. -/
def createMappings : List SourceDocument → Operation ε (Nat × List LoadFailure)
  | [] => return (0, [])
  | document :: rest => do
    let engine ← get
    match engine.store.createMapping document.name document.content with
    | .ok store =>
      set { engine with store }
      let (count, failures) ← createMappings rest
      return (count + 1, failures)
    | .error e =>
      let failure := LoadFailure.mapping document.name e
      log [failure.line]
      let (count, failures) ← createMappings rest
      return (count, failure :: failures)

/-- Take the mappings of a module, if the store is to have them. -/
def loadMappings (source : ModuleSource) (wanted : Bool) :
    Operation ε (Nat × List LoadFailure) := do
  let listing := source.list .mappings
  log listing.lines
  match listing.documents with
  | .error reason =>
    let failure := LoadFailure.source source.id .mappings reason
    log [failure.line]
    return (0, [failure])
  | .ok documents => if wanted then createMappings documents else return (0, [])

/-- Replace what a module contributes, its mappings first. -/
def loadModule (source : ModuleSource) (mappings : Bool) : Operation ε LoadReport := do
  let (count, failures) ← loadMappings source mappings
  let engine ← get
  let (registry, report, lines) := engine.registry.load source
  log lines
  set { engine with registry }
  return { report with
    loaded := (if count = 0 then [] else [(Namespace.mappings, count)]) ++ report.loaded
    failures := failures ++ report.failures }

/-- Drop what a module contributes. -/
def unloadModule (module : ModuleId) : Operation ε Contributions := do
  let engine ← get
  let (registry, removed) := engine.registry.unload module
  set { engine with registry }
  return removed

end Operation

end Clickstream
