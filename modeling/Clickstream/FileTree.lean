import Clickstream.Table

/-! # File trees

The files of a project as a value: a node for every directory and file, under its absolute path.
Paths are written with slashes; empty parts and single dots do not count and two dots go up. A
directory of a file exists whenever the file does.
-/

namespace Clickstream

namespace DiskPath

/-- The parts of a path, last one first. -/
def stack (path : String) : List String :=
  let rec split (part : List Char) : List Char → List String
    | [] => [String.ofList part.reverse]
    | c :: rest =>
      if c = '/' then String.ofList part.reverse :: split [] rest else split (c :: part) rest
  (split [] path.toList).foldl (fun parts part =>
    if part = "" ∨ part = "." then parts
    else if part = ".." then parts.tail
    else part :: parts) []

/-- What stands between the slashes of a path. -/
def segments (path : String) : List String := stack.split [] path.toList

/-- The path of parts, last one first. -/
def ofStack (parts : List String) : String := "/" ++ "/".intercalate parts.reverse

/-- The one way to write a path. -/
def normal (path : String) : String := ofStack (stack path)

/-- What the paths below a directory start with. -/
def beneath (directory : String) : String :=
  match stack directory with
  | [] => "/"
  | parts => ofStack parts ++ "/"

/-- Whether a path starts at the root of all files. -/
def isAbsolute (path : String) : Bool := path.startsWith "/"

/-- A path as seen from a directory. -/
def join (directory path : String) : String :=
  if isAbsolute path then path
  else if directory.endsWith '/' then directory ++ path
  else directory ++ "/" ++ path

/-- The parts of a path that count, first one first; two dots are one of them. -/
def components (path : String) : List String :=
  (segments path).filter fun part => part ≠ "" ∧ part ≠ "."

/-- The last part of a path, unless that goes up or there is none. -/
def name? (path : String) : Option String := (components path).getLast?.filter (· ≠ "..")

/-- The paths above a path, given by its parts. -/
def above : List String → List (List String)
  | [] => []
  | _ :: rest => rest :: above rest

/-- The longest name that a directory can hold, in bytes. -/
def nameLimit : Nat := 255

/-- Whether all parts are short enough. -/
def fits (parts : List String) : Bool := parts.all fun part => part.utf8ByteSize ≤ nameLimit

end DiskPath

inductive Content where
  | text (s : String)
  /-- Bytes that are no text. -/
  | binary (bytes : List UInt8)
  deriving DecidableEq, Inhabited

/-- What a path stands for. -/
inductive Node where
  | directory
  | file (content : Content)
  deriving DecidableEq, Inhabited

/-- All directories and files, by path. -/
structure FileTree where
  nodes : Table Node := {}
  deriving Inhabited

namespace FileTree

/-- What a path stands for; the root of all files is always a directory. -/
def node? (tree : FileTree) (path : String) : Option Node :=
  let path := DiskPath.normal path
  if path = "/" then some .directory else tree.nodes.get? path

/-- Whether a path is a directory. -/
def isDirectory (tree : FileTree) (path : String) : Bool := tree.node? path = some .directory

def file? (tree : FileTree) (path : String) : Option Content :=
  match tree.node? path with
  | some (.file content) => some content
  | _ => none

def text? (tree : FileTree) (path : String) : Option String :=
  match tree.file? path with
  | some (.text s) => some s
  | _ => none

/-- Make one directory; fine if there is one. -/
def makeDirectory (tree : FileTree) (parts : List String) : Option FileTree :=
  let path := DiskPath.ofStack parts
  match tree.nodes.get? path with
  | some .directory => some tree
  | some (.file _) => none
  | none => some { nodes := tree.nodes.insert path .directory }

/-- Make a directory and all above it. -/
def makeDirectories (tree : FileTree) (path : String) : Option FileTree :=
  let parts := DiskPath.stack path
  if !DiskPath.fits parts then none
  else ((parts :: DiskPath.above parts).filter (· ≠ [])).reverse.foldlM makeDirectory tree

/-- Write a file into an existing directory. -/
def write (tree : FileTree) (path : String) (content : Content) : Option FileTree :=
  let parts := DiskPath.stack path
  if !DiskPath.fits parts ∨ !tree.isDirectory (DiskPath.ofStack parts.tail)
      ∨ tree.isDirectory path then none
  else some { nodes := tree.nodes.insert (DiskPath.ofStack parts) (.file content) }

/-- Write a file and make the directories above it. -/
def writeAll (tree : FileTree) (path : String) (content : Content) : Option FileTree := do
  (← tree.makeDirectories (DiskPath.ofStack (DiskPath.stack path).tail)).write path content

def removeFile (tree : FileTree) (path : String) : Option FileTree :=
  match tree.file? path with
  | some _ => some { nodes := tree.nodes.erase (DiskPath.normal path) }
  | none => none

/-- Delete a path and everything below it. -/
def remove (tree : FileTree) (path : String) : FileTree :=
  let path := DiskPath.normal path
  { nodes := tree.nodes.filter fun key _ => key ≠ path ∧ !key.startsWith (path ++ "/") }

/-- Everything below a directory, by path relative to it. -/
def below (tree : FileTree) (directory : String) : List (String × Node) :=
  let start := DiskPath.beneath directory
  tree.nodes.entries.filterMap fun (path, node) =>
    if path.startsWith start ∧ path ≠ start then
      some (String.ofList (path.toList.drop start.toList.length), node)
    else none

/-- What a directory holds, by name. -/
def children (tree : FileTree) (directory : String) : List (String × Node) :=
  (tree.below directory).filter fun (path, _) => '/' ∉ path.toList

end FileTree

end Clickstream
