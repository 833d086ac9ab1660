import Clickstream.Config.Toml
import Clickstream.Goals

/-! # Configuration

Where a server finds its modules and keeps its data, which names goals rely on and what is logged.
Everything has a default; a configuration file overrides what it mentions. Sections are read by
name, or by position from an array whose further items do not matter. A file that is no such
configuration is one of the errors of a server.
-/

namespace Clickstream

/-- An error of a server. -/
inductive ServerError where
  /-- A file is no configuration. -/
  | config (path : String)
  /-- A file or directory cannot be read. -/
  | io (path : String)
  /-- A directory cannot be used as a module. -/
  | module (path reason : String)
  | store (e : StoreError)
  /-- An operation on goals failed. -/
  | goal (e : GoalError)
  /-- Nobody takes commands any more. -/
  | lifecycleStopped

def ServerError.message : ServerError → String
  | config path => "invalid config file " ++ path ++ ": not such a configuration"
  | io path => "I/O error at " ++ path ++ ": cannot be read"
  | module path reason => "invalid module at " ++ path ++ ": " ++ reason
  | store e => "store error: " ++ e.message
  | goal e => "goal error: " ++ e.message
  | lifecycleStopped => "lifecycle actor has stopped"

/-! ## Values of a configuration file -/

namespace Toml

def string? : Toml → Option String
  | string s => some s
  | _ => none

/-- The fields of a section in the order of their declaration. A date has none of them. -/
def section? (names : List String) : Toml → Option (List (Option Toml))
  | table _ _ fields => some (names.map (get? fields))
  | inline fields => some (names.map (get? fields))
  | array items => some ((items.map some ++ names.map fun _ => none).take names.length)
  | tables last others =>
    some (((others.reverse ++ [inline last]).map some ++ names.map fun _ => none).take
      names.length)
  | datetime => some (names.map fun _ => none)
  | _ => none

/-- Whether a value holds nothing. -/
def isEmpty : Toml → Bool
  | array items => items.isEmpty
  | inline fields => fields.isEmpty
  | table _ _ fields => fields.isEmpty
  | _ => false

/-- One of finitely many words, written bare or as the key of an empty table. -/
def word? (read : String → Option α) : Toml → Option α
  | string s => read s
  | inline [(s, value)] => if value.isEmpty then read s else none
  | table _ _ ((s, value) :: _) => if value.isEmpty then read s else none
  | _ => none

/-- A field with a default. -/
def defaulting (default : α) (read : Toml → Option α) : Option Toml → Option α
  | none => some default
  | some value => read value

end Toml

structure ServerConfig where
  /-- The directory of the modules, each in a directory of its own. -/
  modulesDirectory : String
  dataDirectory : String
  settings : GoalSettings := {}
  logFilter : String := "info"
  deriving Inhabited

namespace ServerConfig

/-- The directory of a server inside a project. -/
def directory (root : String) : String := DiskPath.join root ".ctx"

/-- The configuration of a project without a configuration file. -/
def forProject (root : String) : ServerConfig where
  modulesDirectory := DiskPath.join (directory root) "modules"
  dataDirectory := DiskPath.join (directory root) "data"

/-- Where the configuration file of a project is. -/
def defaultPath (root : String) : String := DiskPath.join (directory root) "server.toml"

def goals? (settings : GoalSettings) (value : Toml) : Option GoalSettings := do
  match ← value.section? ["set_property_action", "goal_match_condition", "and_condition"] with
  | [action, goalMatch, and] =>
    return { settings with
      setPropertyAction := ← Toml.defaulting settings.setPropertyAction Toml.string? action
      goalMatchCondition := ← Toml.defaulting settings.goalMatchCondition Toml.string? goalMatch
      andCondition := ← Toml.defaulting settings.andCondition Toml.string? and }
  | _ => none

def report? (settings : GoalSettings) (value : Toml) : Option GoalSettings := do
  match ← value.section? ["date_interval", "session_date_field"] with
  | [interval, field] =>
    return { settings with
      dateInterval :=
        ← Toml.defaulting settings.dateInterval (Toml.word? DateInterval.ofText?) interval
      sessionDateField := ← Toml.defaulting settings.sessionDateField Toml.string? field }
  | _ => none

def log? (filter : String) (value : Toml) : Option String := do
  match ← value.section? ["filter"] with
  | [text] => Toml.defaulting filter Toml.string? text
  | _ => none

/-- Read a configuration; relative directories are those of the project. -/
def ofToml? (root : String) (fields : List (String × Toml)) : Option ServerConfig := do
  let default := forProject root
  let directoryOr (default : String) (name : String) : Option String :=
    Toml.defaulting default (fun value => value.string?.map (DiskPath.join root))
      (Toml.get? fields name)
  let modulesDirectory ← directoryOr default.modulesDirectory "modules_dir"
  let dataDirectory ← directoryOr default.dataDirectory "data_dir"
  let settings := default.settings
  let settings ← Toml.defaulting settings (goals? settings) (Toml.get? fields "goals")
  let settings ← Toml.defaulting settings (report? settings) (Toml.get? fields "report")
  let logFilter ← Toml.defaulting default.logFilter (log? default.logFilter)
    (Toml.get? fields "log")
  return { modulesDirectory, dataDirectory, settings, logFilter }

def load (files : FileTree) (root path : String) : Except ServerError ServerConfig :=
  match files.text? path with
  | none => .error (.io path)
  | some text =>
    match (Toml.parse? text).bind (ofToml? root) with
    | some config => .ok config
    | none => .error (.config path)

/-- Read the configuration file of a project if there is one. -/
def loadOrDefault (files : FileTree) (root : String) : Except ServerError ServerConfig :=
  let path := defaultPath root
  if (files.node? path).isSome then load files root path else .ok (forProject root)

end ServerConfig

end Clickstream
