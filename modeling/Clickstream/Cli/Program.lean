import Clickstream.Server

/-! # Programs

What a command does: it works on a server, prints, writes warnings and may stop with a line for the
operator. What was done and printed until then remains. Tables are printed in columns whose widths
count characters.
-/

namespace Clickstream.Cli

structure Shell where
  /-- The server; before it is opened only its files matter. -/
  engine : Engine := {}
  /-- The directory that relative paths start from. -/
  directory : String
  output : String := ""
  errors : List String := []

/-- A program; it stops with a line for the operator. -/
abbrev Program := ExceptT String (StateT Shell Logged)

namespace Program

def fail (message : String) : Program α := throw ("Error: " ++ message)

def print (text : String) : Program Unit :=
  modify fun shell => { shell with output := shell.output ++ text }

def printLine (text : String) : Program Unit := print (text ++ "\n")

def warn (text : String) : Program Unit :=
  modify fun shell => { shell with errors := shell.errors ++ ["warning: " ++ text] }

/-- Go on with a result or stop with its error. -/
def ofExcept (message : ε → String) : Except ε α → Program α
  | .ok value => return value
  | .error e => fail (message e)

def log (lines : List LogLine) : Program Unit :=
  ExceptT.lift (StateT.lift { value := (), lines })

/-- Carry out an operation on the server, however it ends. -/
def attempt (operation : Operation ε α) : Program (Except ε α) := do
  let shell ← get
  let logged := shell.engine.run operation
  log logged.lines
  let (result, engine) := logged.value
  set { shell with engine }
  return result

/-- Carry out an operation on the server, or stop with its error. -/
def operate (message : ε → String) (operation : Operation ε α) : Program α := do
  ofExcept message (← attempt operation)

def files : Program FileTree := do return (← get).engine.store.files

/-- Go on with other files. -/
def setFiles (files : FileTree) : Program Unit :=
  modify fun shell =>
    { shell with engine := { shell.engine with store := { shell.engine.store with files } } }

/-- The text of a file, its path as the caller gave it. -/
def readFile (path : String) : Program String := do
  match (← files).text? (DiskPath.join (← get).directory path) with
  | some text => return text
  | none => fail ("failed to read " ++ path)

/-- Open the server of a configuration. -/
def openEngine (config : ServerConfig) : Program Unit := do
  match Server.openOn (← files) config with
  | .ok engine => modify fun shell => { shell with engine }
  | .error _ => fail "failed to open context server"

/-- Activate the module in a directory and warn of what was skipped. -/
def activate (module : ModuleDirectory) : Program Unit := do
  let source := module.source (← files)
  let report ← operate ServerError.message (Server.activate source)
  report.load.failures.forM fun failure => warn failure.message

/-- Open the server of a configuration and go through all modules. -/
def openModules (config : ServerConfig) (unlisted : ServerError → String)
    (each : ModuleDirectory → Program Unit) : Program Unit := do
  openEngine config
  match ModuleDirectory.discover (← files) config.modulesDirectory with
  | .ok modules => modules.forM each
  | .error e => fail (unlisted e)

/-- Open the server of a configuration and activate all modules. -/
def openServer (config : ServerConfig) : Program Unit :=
  openModules config (fun _ => "failed to scan " ++ config.modulesDirectory) activate

end Program

/-! ## Columns of text -/

def padRight (width : Nat) (text : String) : String := text ++ "".pushn ' ' (width - text.length)

def padLeft (width : Nat) (text : String) : String := "".pushn ' ' (width - text.length) ++ text

/-- Cut a text that is too long, with three dots for what is missing. -/
def truncated (width : Nat) (text : String) : String :=
  if text.length > width then String.ofList (text.toList.take (width - 3)) ++ "..." else text

def rule (width : Nat) : String := "".pushn '-' width

def lines (texts : List String) : String := String.join (texts.map (· ++ "\n"))

/-- A ratio in percent with one decimal place, if it is a number. -/
def percent (ratio : Float) : String :=
  if ratio.isFinite then Decimal.fixed 1 (ratio * 100) ++ "%" else "n/a"

end Clickstream.Cli
