import Clickstream.Config

/-! # Modules in directories

A module can be a directory whose name is its id, with a directory of documents for every
namespace. Every file below that directory whose name ends in `.json` is a document; its name is the
file's name without the ending.
-/

namespace Clickstream

/-- A directory that is a module. -/
structure ModuleDirectory where
  id : ModuleId
  root : String

namespace ModuleDirectory

def openAt (files : FileTree) (root : String) : Except ServerError ModuleDirectory :=
  if !files.isDirectory root then .error (.module root "not a directory")
  else match DiskPath.name? root with
    | none => .error (.module root "directory name is not valid UTF-8")
    | some id => .ok { id, root }

/-- The modules among the entries of a directory. -/
def openAll (files : FileTree) (directory : String) :
    List (String × Node) → Except ServerError (List ModuleDirectory)
  | [] => .ok []
  | (_, .file _) :: rest => openAll files directory rest
  | (name, .directory) :: rest => do
    let module ← openAt files (DiskPath.join directory name)
    return module :: (← openAll files directory rest)

/-- The modules in a directory, by id; a directory that is not there has none. -/
def discover (files : FileTree) (directory : String) :
    Except ServerError (List ModuleDirectory) :=
  match files.node? directory with
  | none => .ok []
  | some (.file _) => .error (.io directory)
  | some .directory => openAll files directory (files.children directory)

/-- Whether the name of a file says that it is a document. -/
def isDocument (name : String) : Bool := ".json".toList.isSuffixOf name.toList

/-- The name of a document, from its path. -/
def documentName (path : String) : String :=
  let name := (DiskPath.segments path).getLast?.getD path
  (Store.stem? name).getD name

/-- A directory as its documents name it: without empty parts. -/
def spelled (path : String) : String :=
  "/" ++ "/".intercalate ((DiskPath.segments path).filter (· ≠ ""))

/-- The files with documents of a namespace: the paths below its directory, part by part in
order. -/
def documentFiles (files : FileTree) (directory : String) : List (String × Content) :=
  let found := (files.below directory).filterMap fun (path, node) =>
    match node with
    | .file content => if isDocument path then some (path, content) else none
    | .directory => none
  found.mergeSort fun a b =>
    !(DiskPath.segments b.1).lex (DiskPath.segments a.1) fun x y => decide (x < y)

/-- List the documents of a namespace; files that hold no text are reported and skipped. -/
def list (files : FileTree) (module : ModuleDirectory) (ns : Namespace) : Listing :=
  let directory := DiskPath.join (spelled module.root) ns.text
  let found := documentFiles files directory
  { documents := .ok (found.filterMap fun (path, content) =>
      match content with
      | .text content =>
        some { name := documentName path, origin := DiskPath.join directory path, content }
      | .binary _ => none)
    lines := found.filterMap fun (path, content) =>
      match content with
      | .text _ => none
      | .binary _ => some (.failure ("skipping unreadable " ++ ns.text ++ " document "
        ++ DiskPath.join directory path ++ " in module '" ++ module.id
        ++ "': stream did not contain valid UTF-8")) }

/-- The module with the documents that are in its directory now. -/
def source (files : FileTree) (module : ModuleDirectory) : ModuleSource where
  id := module.id
  list := module.list files

end ModuleDirectory

end Clickstream
