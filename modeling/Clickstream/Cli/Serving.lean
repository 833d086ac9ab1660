import Clickstream.Cli.Program

/-! # Serving

A server that keeps running: it makes the directory of the modules if need be, activates them all,
and then waits. Whenever paths in that directory are reported, the modules that they belong to are
activated again, or deactivated if they are gone. What fails for one module is logged, and the
server goes on until somebody stops it.
-/

namespace Clickstream

/-- The module that a path in the directory of the modules belongs to: its first part there. -/
def ModuleDirectory.idAt? (directory path : String) : Option ModuleId :=
  if DiskPath.isAbsolute path = DiskPath.isAbsolute directory then
    ((DiskPath.components directory).isPrefixOf? (DiskPath.components path)).bind List.head?
  else none

/-- What happens while a server waits. -/
structure Burst where
  /-- What others make of the files. -/
  change : FileTree → FileTree := id
  /-- The paths that are reported until nothing more happens for a while. -/
  paths : List String

namespace Cli

/-- Activate a module and say so, or log the error. -/
def bringIn (module : ModuleDirectory) : Program Unit := do
  let source := module.source (← Program.files)
  match ← Program.attempt (Server.activate source) with
  | .ok report =>
    Program.log (report.load.failures.map fun failure =>
      .warning (failure.message ++ " module=" ++ report.load.module))
    let definitions := report.load.loaded.foldr (fun (_, count) sum => count + sum) 0
    Program.printLine ("Activated " ++ report.load.module ++ " (" ++ toString definitions
      ++ " definition(s), " ++ toString report.goalsInstalled.length ++ " goal(s) installed, "
      ++ toString report.goalsDisabled.length ++ " disabled)")
  | .error e =>
    Program.log [.failure ("module activation failed module=" ++ module.root ++ " error="
      ++ e.message)]

/-- Deactivate a module and say so, or log the error. -/
def takeOut (module : ModuleId) : Program Unit := do
  match ← Program.attempt (Server.deactivate module) with
  | .ok report =>
    Program.printLine ("Deactivated " ++ report.module ++ " ("
      ++ toString report.goalsDisabled.length ++ " goal(s) disabled)")
  | .error e =>
    Program.log [.failure ("module deactivation failed module=" ++ module ++ " error="
      ++ e.message)]

/-- Activate the module of a name again, or deactivate it if it has no directory any more. -/
def renew (config : ServerConfig) (module : ModuleId) : Program Unit := do
  let files ← Program.files
  let root := DiskPath.join config.modulesDirectory module
  if files.isDirectory root then
    match ModuleDirectory.openAt files root with
    | .ok module => bringIn module
    | .error e =>
      Program.log [.failure ("module open failed module=" ++ module ++ " error=" ++ e.message)]
  else takeOut module

/-- Open a server, bring in all modules, of which some may fail, and say what is served. -/
def startServing (config : ServerConfig) : Program Unit := do
  match (← Program.files).makeDirectories config.modulesDirectory with
  | some files => Program.setFiles files
  | none => Program.fail ("failed to create " ++ config.modulesDirectory)
  Program.openModules config ServerError.message bringIn
  let metadatas ← Program.operate GoalError.message Goals.metadatas
  Program.printLine ("Serving " ++ toString metadatas.length ++ " goal(s) from "
    ++ config.modulesDirectory ++ ". Press Ctrl-C to stop.")

/-- Bring the modules up to date that a burst is about, each once and by id. -/
def takeBurst (config : ServerConfig) (burst : Burst) : Program Unit := do
  Program.setFiles (burst.change (← Program.files))
  let modules := IdSet.ofList
    (burst.paths.filterMap (ModuleDirectory.idAt? config.modulesDirectory))
  modules.toList.forM (renew config)

/-- Serve until it is stopped after some bursts. -/
def serve (config : ServerConfig) (bursts : List Burst) : Program Unit := do
  startServing config
  bursts.forM (takeBurst config)

end Cli

end Clickstream
