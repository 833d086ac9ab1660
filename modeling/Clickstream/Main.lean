import Clickstream.Cli
import Std.Time.DateTime.Timestamp

/-! # The program

Reads the files that a command can look at, carries the command out on them and writes back what it
changed. A server is told of changes by looking at its files again and again, until the process is
ended.
-/

namespace Clickstream.Cli

def contentOf (bytes : ByteArray) : Content :=
  match String.fromUTF8? bytes with
  | some text => .text text
  | none => .binary bytes.toList

/-- Add a file to a tree, if it can be read. -/
def addFile (files : FileTree) (path : String) : IO FileTree := do
  try
    let bytes ← IO.FS.readBinFile path
    return (files.writeAll path (contentOf bytes)).getD files
  catch _ => return files

/-- Add a path and everything below it to a tree, down to a depth. -/
def addTree (depth : Nat) (files : FileTree) (path : String) : IO FileTree := do
  match depth with
  | 0 => return files
  | depth + 1 =>
    let place := (← IO.currentDir) / path
    if !(← place.pathExists) then return files
    if !(← place.isDir) then addFile files path
    else
      let mut files := (files.makeDirectories path).getD files
      for entry in ← place.readDir do
        files ← addTree depth files entry.path.toString
      return files

/-- The depth down to which directories are read. -/
def depthLimit : Nat := 64

/-- The files of a server. -/
def addServer (files : FileTree) (config : ServerConfig) : IO FileTree := do
  let modules ← addTree depthLimit files config.modulesDirectory
  addTree depthLimit modules config.dataDirectory

/-- The files that an invocation can look at, and its configuration if there is one. -/
def gather (directory : String) (invocation : Invocation) :
    IO (FileTree × Option ServerConfig) := do
  let root := DiskPath.normal (DiskPath.join directory invocation.projectRoot)
  let mut files : FileTree := {}
  for path in ServerConfig.defaultPath root :: invocation.files do
    files ← addFile files (DiskPath.join directory path)
  let config := match invocation.config with
    | some path => ServerConfig.load files root (DiskPath.join directory path)
    | none => ServerConfig.loadOrDefault files root
  match config with
  | .error _ => return (files, none)
  | .ok config => return (← addServer files config, some config)

def writeNode (path : String) : Node → IO Unit
  | .directory => IO.FS.createDirAll path
  | .file (.text text) => IO.FS.writeFile path text
  | .file (.binary bytes) => IO.FS.writeBinFile path (ByteArray.mk bytes.toArray)

/-- Write what differs between two trees. -/
def writeBack (before after : FileTree) : IO Unit := do
  for (path, node) in after.nodes.entries do
    if before.nodes.get? path ≠ some node then writeNode path node
  for (path, node) in before.nodes.entries do
    if !after.nodes.contains path && node ≠ .directory then IO.FS.removeFile path

def currentInstant : IO Time.Instant := do
  let nanos := (← Std.Time.Timestamp.now).toNanosecondsSinceUnixEpoch.val
  return ⟨nanos / 1000000000, (nanos % 1000000000).toNat⟩

/-- A line of the log as the operator sees it. -/
def logText (asJson : Bool) (line : LogLine) : String :=
  let level := match line.level with
    | .warn => "WARN"
    | .error => "ERROR"
  if asJson then
    (Json.object [("level", .string level),
      ("fields", .object [("message", .string line.text)])]).compact
  else level ++ " " ++ line.text

/-- Write what a run changed and show what it has to say. -/
def settle (asJson : Bool) (before : FileTree) (result : Result) : IO Unit := do
  writeBack before result.files
  for line in result.log do
    IO.eprintln (logText asJson line)
  IO.print result.output
  (← IO.getStdout).flush
  for line in result.errors do
    IO.eprintln line

/-- The paths at which two trees differ. -/
def changedPaths (before after : FileTree) : List String :=
  ((before.nodes.keys ++ after.nodes.keys).filter fun path =>
    before.nodes.get? path ≠ after.nodes.get? path).eraseDups

/-- How long to wait before looking at the files again, in milliseconds. -/
def pause : UInt32 := 300

/-- Look at the files time and again, and go on with those that others have changed. -/
def watch (asJson : Bool) (config : ServerConfig) (shell : Shell) : IO Unit := do
  let mut shell := shell
  repeat
    IO.sleep pause
    let files ← addServer {} config
    let paths := changedPaths shell.engine.store.files files
    if !paths.isEmpty then
      let burst : Burst := { change := fun _ => files, paths }
      let (result, next) := shell.carryOut (takeBurst config burst)
      settle asJson files result
      shell := next

end Clickstream.Cli

open Clickstream.Cli in
def main (arguments : List String) : IO UInt32 := do
  let directory := (← IO.currentDir).toString
  match Invocation.read arguments with
  | .error _ =>
    let result := run {} directory (← currentInstant) arguments
    settle false {} result
    return result.code.toUInt32
  | .ok invocation =>
    let (files, config) ← gather directory invocation
    let (result, shell) := launch files directory (← currentInstant) arguments []
    settle invocation.logJson files result
    match invocation.command, config with
    | .serve, some config =>
      if result.code = 0 then watch invocation.logJson config shell
    | _, _ => pure ()
    return result.code.toUInt32
