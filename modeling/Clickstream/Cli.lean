import Clickstream.Cli.Goals
import Clickstream.Cli.LogFilter
import Clickstream.Cli.Matching
import Clickstream.Cli.Serving
import Clickstream.Cli.Tags
import Clickstream.Cli.Types

/-! # The command line

What a list of arguments does to the files: the configuration is read, the log filter checked, the
command carried out. Bad arguments end with code 2, a command that stops ends with code 1.
-/

namespace Clickstream.Cli

structure Result where
  code : Nat
  output : String := ""
  errors : List String := []
  log : List LogLine := []
  files : FileTree

def usage : String := lines [
  "Usage: ctx [--project-root DIR] [--config FILE] [--log-json] COMMAND",
  "",
  "Commands:",
  "  tags",
  "  types condition|action|value|property [--tag TAG] [--recursive]",
  "  match FILE [--profile ID] [--session ID]",
  "  goal list [--all]",
  "  goal show ID",
  "  goal create ID NAME [--description TEXT]",
  "  goal set FILE [--id ID]",
  "  goal remove ID",
  "  goal report ID [--split FIELD] [--filter FILE] [--json]",
  "  serve"]

def versionText : String := "ctx 0.3.0"

/-- The configuration that an invocation asks for. -/
def readConfig (root : String) (config : Option String) : Program ServerConfig := do
  let files ← Program.files
  let loaded := match config with
    | some path => do
      return ServerConfig.load files root (DiskPath.join (← get).directory path)
    | none => pure (ServerConfig.loadOrDefault files root)
  match ← loaded with
  | .ok config => return config
  | .error _ => Program.fail "failed to load server config"

/-- Carry out a command; bursts happen only while it serves. -/
def runCommand (now : Time.Instant) (bursts : List Burst) (config : ServerConfig) :
    Command → Program Unit
  | .tags => printTags config
  | .types kind tag recursive => printTypes config kind tag recursive
  | .match file profile session => printMatch config now file profile session
  | .goal command => runGoalCommand config command
  | .serve => serve config bursts

def runInvocation (now : Time.Instant) (bursts : List Burst) (invocation : Invocation) :
    Program Unit := do
  let root := DiskPath.normal (DiskPath.join (← get).directory invocation.projectRoot)
  let config ← readConfig root invocation.config
  if !LogFilter.isValid config.logFilter then
    Program.fail ("invalid log filter '" ++ config.logFilter ++ "'")
  runCommand now bursts config invocation.command

/-- The shell that a run starts with. -/
def Shell.start (files : FileTree) (directory : String) : Shell :=
  { engine := { store := { files } }, directory }

/-- What a program comes to, and the shell that it leaves to what may follow. -/
def Shell.carryOut (shell : Shell) (program : Program Unit) : Result × Shell :=
  let logged := (ExceptT.run program).run shell
  let (result, shell) := logged.value
  let (code, stopped) := match result with
    | .ok () => (0, [])
    | .error line => (1, [line])
  ({ code
     output := shell.output
     errors := shell.errors ++ stopped
     log := logged.lines
     files := shell.engine.store.files },
    { shell with output := "", errors := [] })

/-- Run the program with arguments in a directory. -/
def launch (files : FileTree) (directory : String) (now : Time.Instant) (arguments : List String)
    (bursts : List Burst) : Result × Shell :=
  let shell := Shell.start files directory
  match Invocation.read arguments with
  | .error .usage => ({ code := 2, errors := [usage], files }, shell)
  | .error .help => ({ code := 0, output := usage, files }, shell)
  | .error .version => ({ code := 0, output := versionText ++ "\n", files }, shell)
  | .ok invocation => shell.carryOut (runInvocation now bursts invocation)

/-- What comes of a run; if it serves, it is stopped after some bursts. -/
def run (files : FileTree) (directory : String) (now : Time.Instant) (arguments : List String)
    (bursts : List Burst := []) : Result :=
  (launch files directory now arguments bursts).1

end Clickstream.Cli
