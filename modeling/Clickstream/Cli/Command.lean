import Clickstream.Cli.Arguments

/-! # Commands

What can be asked for on the command line.
-/

namespace Clickstream.Cli

/-- The kinds of types that can be listed. -/
inductive TypeKind where
  | condition
  | action
  | value
  | property
  deriving DecidableEq

namespace TypeKind

def text : TypeKind → String
  | condition => "condition"
  | action => "action"
  | value => "value"
  | property => "property"

def all : List TypeKind := [condition, action, value, property]

end TypeKind

inductive GoalCommand where
  /-- List them; hidden ones only if all are asked for. -/
  | list (all : Bool)
  /-- Show one as a document. -/
  | show (id : String)
  | create (id name description : String)
  /-- Save the one of a file, perhaps under another id. -/
  | set (file : String) (id : Option String)
  | remove (id : String)
  | report (id : String) (split filter : Option String) (json : Bool)

inductive Command where
  | tags
  /-- List types, perhaps only those under a tag or also below it. -/
  | types (kind : TypeKind) (tag : Option String) (recursive : Bool)
  /-- Tell whether a profile in a session satisfies the condition of a file. -/
  | match (file : String) (profile session : Option String)
  | goal (command : GoalCommand)
  /-- Keep a server running, with the modules as they come and go. -/
  | serve

/-- A command and where it is to work. -/
structure Invocation where
  /-- The directory of the project. -/
  projectRoot : String := "."
  /-- The configuration file, if it is not in its usual place. -/
  config : Option String := none
  /-- Whether log lines are written as JSON. -/
  logJson : Bool := false
  command : Command

namespace GoalCommand

def read : String → List String → Except Halt GoalCommand
  | "list", rest => do
    let (found, _) ← { flags := ["all"] : Grammar }.read rest
    return .list (found.has "all")
  | "show", rest => do
    match (← { words := [.text] : Grammar }.read rest).1.words with
    | [id] => return .show id
    | _ => throw .usage
  | "create", rest => do
    let (found, _) ← ({ options := [("description", .text)], words := [.text, .text] } :
      Grammar).read rest
    match found.words with
    | [id, name] => return .create id name ((found.value? "description").getD "")
    | _ => throw .usage
  | "set", rest => do
    let (found, _) ← ({ options := [("id", .text)], words := [.path] } : Grammar).read rest
    match found.words with
    | [file] => return .set file (found.value? "id")
    | _ => throw .usage
  | "remove", rest => do
    match (← { words := [.text] : Grammar }.read rest).1.words with
    | [id] => return .remove id
    | _ => throw .usage
  | "report", rest => do
    let (found, _) ← ({
      flags := ["json"]
      options := [("split", .text), ("filter", .path)]
      words := [.text] } : Grammar).read rest
    match found.words with
    | [id] =>
      return .report id (found.value? "split") (found.value? "filter") (found.has "json")
    | _ => throw .usage
  | "help", _ => throw .help
  | _, _ => throw .usage

end GoalCommand

namespace Command

def read : String → List String → Except Halt Command
  | "tags", rest => do
    let _ ← ({} : Grammar).read rest
    return .tags
  | "types", rest => do
    let (found, _) ← ({
      flags := ["recursive"]
      options := [("tag", .text)]
      words := [.word (TypeKind.all.map TypeKind.text)] } : Grammar).read rest
    match found.words.findSome? fun word => TypeKind.all.find? fun kind => kind.text = word with
    | some kind => return .types kind (found.value? "tag") (found.has "recursive")
    | none => throw .usage
  | "match", rest => do
    let (found, _) ← ({
      options := [("profile", .text), ("session", .text)]
      words := [.path] } : Grammar).read rest
    match found.words with
    | [file] => return .match file (found.value? "profile") (found.value? "session")
    | _ => throw .usage
  | "goal", rest => do
    match ← { hasCommands := true : Grammar }.read rest with
    | (_, name :: rest) => return .goal (← GoalCommand.read name rest)
    | (_, []) => throw .usage
  | "serve", rest => do
    let _ ← ({} : Grammar).read rest
    return .serve
  | "help", _ => throw .help
  | _, _ => throw .usage

end Command

/-- Read the arguments of the program. -/
def Invocation.read (arguments : List String) : Except Halt Invocation := do
  let (found, rest) ← ({
    flags := ["log-json"]
    options := [("project-root", .path), ("config", .path)]
    hasCommands := true
    hasVersion := true } : Grammar).read arguments
  match rest with
  | name :: rest =>
    return {
      projectRoot := (found.value? "project-root").getD "."
      config := found.value? "config"
      logJson := found.has "log-json"
      command := ← Command.read name rest }
  | [] => throw .usage

/-- The files that an invocation names. -/
def Invocation.files (invocation : Invocation) : List String :=
  invocation.config.toList ++
    match invocation.command with
    | .match file _ _ => [file]
    | .goal (.set file _) => [file]
    | .goal (.report _ _ filter _) => filter.toList
    | _ => []

end Clickstream.Cli
