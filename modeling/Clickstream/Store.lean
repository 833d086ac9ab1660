import Clickstream.FileTree
import Clickstream.Json.Reader
import Clickstream.Predicate

/-! # The store

Items by type and id, and mappings by item type, all held in memory. A store opened on a directory
also writes every change there: an item to a file named for its type and id, a mapping to a file
among `_mappings`. Opening reads the directory back; an item then counts by what its file says, not
by the file's name. Characters that do not suit a file name are replaced, so two ids can share a
file.
-/

namespace Clickstream

/-- A store and the files it may be kept in. -/
structure Store where
  /-- The items of each type, by id. -/
  items : Table (Table Item) := {}
  /-- The mappings, by item type. -/
  mappings : Table Json := {}
  /-- The directory to write to. -/
  directory : Option String := none
  files : FileTree := {}
  deriving Inhabited

namespace Store

/-- The directory of the mappings. -/
def mappingsName : String := "_mappings"

/-- Whether a character may stand in a file name. -/
def isFileSafe (c : Char) : Bool := c.isAlphanum || c = '.' || c = '-' || c = '_'

/-- A text as part of a file name. -/
def fileSafe (id : String) : String :=
  String.ofList (id.toList.map fun c => if isFileSafe c then c else '_')

/-- The file of an item or mapping below the directory of the store. -/
def fileName (directory group id : String) : String :=
  directory ++ "/" ++ group ++ "/" ++ fileSafe id ++ ".json"

/-- Put an item among the others. -/
def put (items : Table (Table Item)) (item : Item) : Table (Table Item) :=
  items.insert item.type (((items.get? item.type).getD .empty).insert item.id item)

/-- The item of a type and id. -/
def load (store : Store) (type id : String) : Option Item :=
  (store.items.get? type).bind (·.get? id)

/-- All items of a type, by id. -/
def all (store : Store) (type : String) : List Item :=
  ((store.items.get? type).getD .empty).values

/-- The number of items of a type. -/
def count (store : Store) (type : String) : Nat := (store.all type).length

/-- The mapping of an item type. -/
def mapping? (store : Store) (type : String) : Option Json := store.mappings.get? type

/-- Write a text to a file of the store, if it is kept in files. -/
def writeFile (store : Store) (group id text : String) : Except StoreError Store :=
  match store.directory with
  | none => .ok store
  | some directory =>
    let path := fileName directory group id
    match store.files.writeAll path (.text text) with
    | some files => .ok { store with files }
    | none => .error (.io path)

def save (store : Store) (item : Item) : Except StoreError Store := do
  let store ← store.writeFile (fileSafe item.type) item.id item.toJson.pretty
  return { store with items := put store.items item }

/-- Drop an item from memory. -/
def drop (store : Store) (type id : String) : Store :=
  match store.items.get? type with
  | none => store
  | some items => { store with items := store.items.insert type (items.erase id) }

/-- Delete an item and its file, and tell whether there was one. The item is gone even if its file
cannot be deleted. -/
def remove (store : Store) (type id : String) : Except StoreError Bool × Store :=
  let existed := (store.load type id).isSome
  let store := store.drop type id
  match store.directory with
  | none => (.ok existed, store)
  | some directory =>
    let path := fileName directory (fileSafe type) id
    match store.files.node? path with
    | none => (.ok existed, store)
    | some _ =>
      match store.files.removeFile path with
      | some files => (.ok existed, { store with files })
      | none => (.error (.io path), store)

/-- Set the mapping of an item type to a JSON text. -/
def createMapping (store : Store) (type text : String) : Except StoreError Store :=
  match Json.parse? text with
  | none => .error .serialization
  | some value => do
    let store ← store.writeFile mappingsName type text
    return { store with mappings := store.mappings.insert type value }

/-! ## Reading a directory -/

/-- The name of a JSON file without its ending. -/
def stem? (name : String) : Option String :=
  let cs := name.toList
  if cs.length > 5 ∧ ".json".toList.isSuffixOf cs then some (String.ofList (cs.take (cs.length - 5)))
  else none

abbrev Contents := Table (Table Item) × Table Json

/-- Add what a file of one of the directories of a store says. -/
def readFile (group path : String) (contents : Contents) (name : String) (node : Node) :
    Except StoreError Contents :=
  match stem? name, node with
  | none, _ => .ok contents
  | some stem, .file (.text text) =>
    if group = mappingsName then
      match Json.parse? text with
      | some value => .ok (contents.1, contents.2.insert stem value)
      | none => .error .serialization
    else
      match (Json.read? text).bind Item.ofDocument? with
      | some item => .ok (put contents.1 item, contents.2)
      | none => .error .serialization
  | some _, _ => .error (.io (path ++ "/" ++ name))

/-- Add what one of the directories of a store holds. -/
def readGroup (files : FileTree) (directory : String) (contents : Contents) (group : String)
    (node : Node) : Except StoreError Contents :=
  match node with
  | .file _ => .ok contents
  | .directory =>
    let path := directory ++ "/" ++ group
    (files.children path).foldlM (fun acc (name, node) => readFile group path acc name node)
      contents

/-- Everything that a directory holds. -/
def readDirectory (files : FileTree) (directory : String) : Except StoreError Contents :=
  (files.children directory).foldlM (fun acc (name, node) =>
    readGroup files directory acc name node) ({}, {})

/-- The store kept in a directory, which is made if need be. -/
def openOn (files : FileTree) (directory : String) : Except StoreError Store :=
  match files.makeDirectories directory with
  | none => .error (.io directory)
  | some files => do
    let (items, mappings) ← readDirectory files directory
    return { items, mappings, directory := some directory, files }

end Store

end Clickstream
