import Clickstream.Proofs.EntityItems
import Clickstream.Proofs.Holdings
import Clickstream.Proofs.Trees

/-! # Reading a directory back

Opening a store puts together what the files two parts below its directory say. A mapping goes by the
name of its file, so its file alone says what it is. An item goes by what the file says, so several
files could tell of one item; in a tidy directory each item is told of by the file that it would be
saved to, and by no other.
-/

namespace Clickstream

open DiskPath

/-! ## Items as texts -/

/-- The text of a value reads back as the document that it was written from. -/
def Json.ReadsBack (value : Json) : Prop := Json.read? value.pretty = some (.ofJson value)

/-- An item as records and item documents make it, with a text that reads back. -/
structure Item.Lasts (item : Item) : Prop where
  ordered : Json.ordered item.body = item.body
  unreserved : ∀ field ∈ item.body, Item.isReserved field.1 = false
  readsBack : item.toJson.ReadsBack

namespace Item

variable {item : Item}

theorem Lasts.read (lasts : item.Lasts) :
    (Json.read? item.toJson.pretty).bind ofDocument? = some item := by
  rw [lasts.readsBack]
  exact ofDocument?_toJson .held lasts.ordered lasts.unreserved

theorem Lasts.parse (lasts : item.Lasts) :
    Json.parse? item.toJson.pretty = some item.toJson.canonical := by
  rw [Json.parse?, lasts.readsBack]
  exact Document.value?_ofJson _

end Item

namespace Store

/-! ## One file -/

/-- What a file in a directory of a store says. -/
inductive Saying where
  | nothing
  | item (found : Item)
  | mapping (name : String) (value : Json)

/-- What a file says, if it can be read. -/
def saying? (group name : String) (node : Node) : Option Saying :=
  match stem? name, node with
  | none, _ => some .nothing
  | some stem, .file (.text text) =>
    if group = mappingsName then (Json.parse? text).map (.mapping stem)
    else ((Json.read? text).bind Item.ofDocument?).map .item
  | some _, _ => none

/-- Add what a file says. -/
def Saying.addTo (contents : Contents) : Saying → Contents
  | .nothing => contents
  | .item found => (put contents.1 found, contents.2)
  | .mapping name value => (contents.1, contents.2.insert name value)

theorem toOption_readFile {group path name : String} {contents : Contents} {node : Node} :
    (readFile group path contents name node).toOption =
      (saying? group name node).map (Saying.addTo contents) := by
  rw [readFile.eq_def, saying?.eq_def]
  cases stem? name with
  | none => rfl
  | some stem =>
    cases node with
    | directory => rfl
    | file content =>
      cases content with
      | binary bytes => rfl
      | text text =>
        dsimp only
        by_cases mappings : group = mappingsName
        · rw [if_pos mappings, if_pos mappings]
          cases Json.parse? text <;> rfl
        · rw [if_neg mappings, if_neg mappings]
          cases (Json.read? text).bind Item.ofDocument? <;> rfl

/-! ## All files -/

/-- The files in one of the directories of a store, with its name. -/
def groupFiles (files : FileTree) (directory group : String) : Node → List (String × String × Node)
  | .file _ => []
  | .directory =>
    (files.children (directory ++ "/" ++ group)).map fun child => (group, child.1, child.2)

/-- The files in all directories of a store. -/
def listing (files : FileTree) (directory : String) : List (String × String × Node) :=
  (files.children directory).flatMap fun child => groupFiles files directory child.1 child.2

/-- What the files say, in the order in which they are read. -/
def sayings (files : FileTree) (directory : String) : List Saying :=
  (listing files directory).filterMap fun file => saying? file.1 file.2.1 file.2.2

/-- All files can be read. -/
def Readable (files : FileTree) (directory : String) : Prop :=
  ∀ file ∈ listing files directory, (saying? file.1 file.2.1 file.2.2).isSome = true

/-- Add what a file says, if it can be read. -/
def tell? (contents : Contents) (file : String × String × Node) : Option Contents :=
  (saying? file.1 file.2.1 file.2.2).map (Saying.addTo contents)

theorem toOption_foldlM {α β ε : Type} {f : β → α → Except ε β} {l : List α} {b : β} :
    (l.foldlM f b).toOption = l.foldlM (fun b a => (f b a).toOption) b := by
  induction l generalizing b with
  | nil => rfl
  | cons a rest ih =>
    rw [List.foldlM_cons, List.foldlM_cons]
    cases f b a with
    | error e => rfl
    | ok b' => exact ih

theorem toOption_readGroup {files : FileTree} {directory group : String} {contents : Contents}
    {node : Node} :
    (readGroup files directory contents group node).toOption =
      (groupFiles files directory group node).foldlM tell? contents := by
  cases node with
  | file content => rfl
  | directory =>
    rw [readGroup, toOption_foldlM, groupFiles, List.foldlM_map]
    simp only [toOption_readFile, tell?]

theorem toOption_readDirectory {files : FileTree} {directory : String} :
    (readDirectory files directory).toOption = (listing files directory).foldlM tell? ({}, {}) := by
  have each : ∀ (children : List (String × Node)) (contents : Contents),
      children.foldlM (fun acc child =>
          (groupFiles files directory child.1 child.2).foldlM tell? acc) contents =
        (children.flatMap fun child => groupFiles files directory child.1 child.2).foldlM tell?
          contents := by
    intro children
    induction children with
    | nil => exact fun _ => rfl
    | cons child rest ih =>
      intro contents
      rw [List.foldlM_cons, List.flatMap_cons, List.foldlM_append]
      simp only [ih]
  rw [readDirectory, toOption_foldlM, listing, ← each]
  simp only [toOption_readGroup]

theorem foldlM_tell? {files : List (String × String × Node)} {contents result : Contents} :
    files.foldlM tell? contents = some result ↔
      (∀ file ∈ files, (saying? file.1 file.2.1 file.2.2).isSome = true) ∧
        result = (files.filterMap fun file => saying? file.1 file.2.1 file.2.2).foldl Saying.addTo
          contents := by
  induction files generalizing contents with
  | nil =>
    constructor
    · intro read
      cases read
      exact ⟨by simp, rfl⟩
    · rintro ⟨-, rfl⟩
      rfl
  | cons file rest ih =>
    rw [List.foldlM_cons, tell?]
    cases said : saying? file.1 file.2.1 file.2.2 with
    | none => simp [said]
    | some saying =>
      simp only [Option.map_some, Option.bind_eq_bind, Option.bind_some, ih, List.forall_mem_cons,
        said, Option.isSome_some, true_and, List.filterMap_cons, List.foldl_cons]

/-- A directory can be read if all its files can, and holds what they say. -/
theorem readDirectory_eq_ok {files : FileTree} {directory : String} {contents : Contents} :
    readDirectory files directory = .ok contents ↔
      Readable files directory ∧
        contents = (sayings files directory).foldl Saying.addTo ({}, {}) := by
  have read := @foldlM_tell? (listing files directory) ({}, {}) contents
  rw [← toOption_readDirectory] at read
  refine Iff.trans ?_ read
  cases readDirectory files directory with
  | error e => simp [Except.toOption]
  | ok result => simp [Except.toOption]

/-! ## What is read -/

/-- The item of a type and id that a file tells of. -/
def Saying.itemAt? (type id : String) : Saying → Option Item
  | .item found => if type = found.type ∧ id = found.id then some found else none
  | _ => none

/-- The mapping of a name that a file tells of. -/
def Saying.mappingAt? (name : String) : Saying → Option Json
  | .mapping other value => if name = other then some value else none
  | _ => none

theorem load_addTo {contents : Contents} {saying : Saying} {type id : String} :
    ({ items := (saying.addTo contents).1 } : Store).load type id =
      (saying.itemAt? type id).or (({ items := contents.1 } : Store).load type id) := by
  cases saying with
  | nothing => rfl
  | mapping name value => rfl
  | item item =>
    have put := congrFun (congrFun (@load_put { items := contents.1 } item) type) id
    refine put.trans ?_
    rw [Holdings.set, Saying.itemAt?]
    split <;> rfl

theorem load_foldl_addTo {said : List Saying} {contents : Contents} {type id : String} :
    ({ items := (said.foldl Saying.addTo contents).1 } : Store).load type id =
      (said.reverse.findSome? (Saying.itemAt? type id)).or
        (({ items := contents.1 } : Store).load type id) := by
  induction said generalizing contents with
  | nil => rfl
  | cons first rest ih =>
    rw [List.foldl_cons, ih, load_addTo, List.reverse_cons, List.findSome?_append,
      List.findSome?_singleton, Option.or_assoc]

theorem get?_foldl_addTo {said : List Saying} {contents : Contents} {name : String} :
    (said.foldl Saying.addTo contents).2.get? name =
      (said.reverse.findSome? (Saying.mappingAt? name)).or (contents.2.get? name) := by
  induction said generalizing contents with
  | nil => rfl
  | cons first rest ih =>
    rw [List.foldl_cons, ih, List.reverse_cons, List.findSome?_append, List.findSome?_singleton,
      Option.or_assoc]
    cases first with
    | nothing => rfl
    | item item => rfl
    | mapping other value =>
      simp only [Saying.addTo, Saying.mappingAt?, Table.get?_insert]
      split <;> rfl

end Store

end Clickstream
