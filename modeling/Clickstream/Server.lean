import Clickstream.Config
import Clickstream.ModuleDirectory

/-! # The server

Opening the data of a project and bringing modules in and out. Activating a module replaces its
definitions first, then disables the goals that lost a condition type, and only then installs
predefined goals. What was changed before an error stays changed.
-/

namespace Clickstream

/-- What came of activating a module. -/
structure ActivationReport where
  /-- What came of loading its definitions. -/
  load : LoadReport
  /-- The predefined goals that were installed. -/
  goalsInstalled : List String
  /-- The goals that lost a condition type. -/
  goalsDisabled : List String

/-- What came of deactivating a module. -/
structure DeactivationReport where
  module : ModuleId
  removed : Contributions
  /-- The goals that lost a condition type. -/
  goalsDisabled : List String

namespace Server

/-- An operation of a server. -/
abbrev ServerOperation := Operation ServerError

/-- An operation on goals as one of the server. -/
def ofGoals (operation : Operation GoalError α) : ServerOperation α :=
  ExceptT.adapt ServerError.goal operation

/-- A server without definitions on the data of a configuration. -/
def openOn (files : FileTree) (config : ServerConfig) : Except ServerError Engine :=
  match Store.openOn files config.dataDirectory with
  | .ok store => .ok { store, settings := config.settings }
  | .error e => .error (.store e)

/-- Load a module's definitions and mappings, then its predefined goals. -/
def activate (source : ModuleSource) : ServerOperation ActivationReport := do
  let load ← Operation.loadModule source true
  let goalsDisabled ← ofGoals (Goals.disableUsing load.removed.conditionTypes)
  let goalsInstalled ← ofGoals (Goals.loadGoals source)
  return { load, goalsInstalled, goalsDisabled }

/-- Drop a module's definitions, then disable the goals that relied on them. -/
def deactivate (module : ModuleId) : ServerOperation DeactivationReport := do
  let removed ← Operation.unloadModule module
  Goals.forgetGoals module
  let goalsDisabled ← ofGoals (Goals.disableUsing removed.conditionTypes)
  return { module, removed, goalsDisabled }

/-- A goal that has to be there. -/
def goal (goalId : String) : ServerOperation Goal := do
  match ← ofGoals (Goals.getGoal goalId) with
  | some goal => return goal
  | none => throw (.goal (.notFound goalId))

/-- The report of a goal that has to be there. -/
def goalReport (goalId : String) (split : Option String) (filter : Option Condition) :
    ServerOperation GoalReport := do
  let _ ← goal goalId
  match Goals.report (← get) goalId split filter with
  | .ok report => return report
  | .error e => throw (.goal e)

/-- Keep a session, so that reports count it. -/
def recordSession (session : Session) : ServerOperation Unit :=
  ExceptT.adapt ServerError.store (Operation.save (Item.ofEntity session))

/-- Activate modules one after the other, and collect the reports. -/
def activateAll : List ModuleSource → ServerOperation (List ActivationReport)
  | [] => return []
  | source :: rest => do
    let report ← activate source
    return report :: (← activateAll rest)

end Server

end Clickstream
