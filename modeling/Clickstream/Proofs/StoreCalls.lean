import Clickstream.Proofs.LastRead

/-! # Calls that change a store

A call writes one file, deletes one, or fails and leaves the files as they are. So what a file of a
store says after some calls is what the last call on that file left there, and it says what it said
before the calls if none of them was on it.
-/

namespace Clickstream

open DiskPath Store

/-- A call that changes a store. -/
inductive StoreCall where
  | save (item : Item)
  | remove (type id : String)
  | createMapping (name text : String)

namespace StoreCall

/-- The directory that a call writes to, below that of the store. -/
def group : StoreCall → String
  | save item => fileSafe item.type
  | remove type _ => fileSafe type
  | createMapping _ _ => mappingsName

/-- What the file of a call is named for. -/
def id : StoreCall → String
  | save item => item.id
  | remove _ id => id
  | createMapping name _ => name

/-- The text that a call leaves in its file, unless it deletes that. -/
def text? : StoreCall → Option String
  | save item => some item.toJson.pretty
  | remove _ _ => none
  | createMapping _ text => some text

/-- The type and id of the item that a call is on. -/
def pair? : StoreCall → Option (String × String)
  | save item => some (item.type, item.id)
  | remove type id => some (type, id)
  | createMapping _ _ => none

def path (directory : String) (call : StoreCall) : String := fileName directory call.group call.id

/-- Take over a changed store, if there is one. -/
def taken (store : Store) : Except StoreError Store → Except StoreError Unit × Store
  | .ok store' => (.ok (), store')
  | .error e => (.error e, store)

def on (store : Store) : StoreCall → Except StoreError Unit × Store
  | save item => taken store (store.save item)
  | remove type id => ((store.remove type id).1.map fun _ => (), (store.remove type id).2)
  | createMapping name text => taken store (store.createMapping name text)

variable {store store' start : Store} {call : StoreCall} {directory : String} {e : StoreError}

theorem slashless_group : '/' ∉ call.group.toList := by
  cases call with
  | save item => exact slashless_fileSafe
  | remove type id => exact slashless_fileSafe
  | createMapping name text => exact isName_mappingsName.isPart.2

/-! ## What a call does to the files -/

theorem taken_eq_ok {result : Except StoreError Store}
    (h : taken store result = (.ok (), store')) : result = .ok store' := by
  cases result with
  | ok between => cases h; rfl
  | error e => cases h

theorem taken_eq_error {result : Except StoreError Store}
    (h : taken store result = (.error e, store')) : result = .error e ∧ store' = store := by
  cases result with
  | ok between => cases h
  | error e => cases h; exact ⟨rfl, rfl⟩

/-- The files after a call that did what it should. -/
def Changes (call : StoreCall) (directory : String) (files files' : FileTree) : Prop :=
  match call.text? with
  | some text => files.writeAll (call.path directory) (.text text) = some files'
  | none => (files.node? (call.path directory) = none ∧ files' = files) ∨
      files.removeFile (call.path directory) = some files'

theorem files_of_writeFile {group id text : String} (kept : store.directory = some directory)
    (written : store.writeFile group id text = .ok store') :
    store'.directory = some directory ∧
      store.files.writeAll (fileName directory group id) (.text text) = some store'.files := by
  rw [writeFile, kept] at written
  dsimp only at written
  split at written
  · next files isWritten => cases written; exact ⟨rfl, isWritten⟩
  · cases written

theorem files_drop {type id : String} :
    (store.drop type id).directory = store.directory ∧
      (store.drop type id).files = store.files := by
  rw [drop]
  split <;> exact ⟨rfl, rfl⟩

theorem changes_of_on (kept : store.directory = some directory)
    (done : call.on store = (.ok (), store')) :
    store'.directory = some directory ∧ call.Changes directory store.files store'.files := by
  cases call with
  | save item =>
    have saved := taken_eq_ok done
    rw [Store.save] at saved
    cases written : store.writeFile (fileSafe item.type) item.id item.toJson.pretty with
    | error e => rw [written] at saved; cases saved
    | ok between =>
      rw [written] at saved
      cases saved
      have wrote := files_of_writeFile kept written
      exact wrote
  | createMapping name text =>
    have created := taken_eq_ok done
    rw [Store.createMapping] at created
    split at created
    · cases created
    · cases written : store.writeFile mappingsName name text with
      | error e => rw [written] at created; cases created
      | ok between =>
        rw [written] at created
        cases created
        have wrote := files_of_writeFile kept written
        exact wrote
  | remove type id =>
    -- The item is gone from memory first, which leaves the files alone.
    obtain ⟨sameDirectory, sameFiles⟩ := @files_drop store type id
    rw [on, Store.remove, sameDirectory, kept] at done
    rw [Changes]
    dsimp only [text?, path, group] at done ⊢
    rw [sameFiles] at done
    split at done
    · next absent =>
      cases done
      exact ⟨sameDirectory.trans kept, .inl ⟨absent, sameFiles⟩⟩
    · split at done
      · next files removed =>
        cases done
        exact ⟨rfl, .inr removed⟩
      · cases done

/-- A call that fails leaves the files as they are. -/
theorem files_of_on_error (failed : call.on store = (.error e, store')) :
    store'.directory = store.directory ∧ store'.files = store.files := by
  cases call with
  | save item => rw [(taken_eq_error failed).2]; exact ⟨rfl, rfl⟩
  | createMapping name text => rw [(taken_eq_error failed).2]; exact ⟨rfl, rfl⟩
  | remove type id =>
    obtain ⟨sameDirectory, sameFiles⟩ := @files_drop store type id
    rw [on, Store.remove] at failed
    split at failed
    · cases failed
    · dsimp only at failed
      split at failed
      · cases failed
      · split at failed
        · cases failed
        · cases failed
          exact ⟨sameDirectory, sameFiles⟩

/-! ## What a call does to what the files say -/

/-- The file of a call is at a place. -/
def At (call : StoreCall) (place : Place) : Prop :=
  IsName call.group ∧ place = ⟨call.group, fileSafe call.id ++ ".json"⟩

instance {place : Place} : Decidable (call.At place) := inferInstanceAs (Decidable (_ ∧ _))

theorem at_iff {place : Place} : call.At place ↔
    place.name :: place.group :: stack directory = stack (call.path directory) := by
  rw [eq_comm, path, stack_fileName_eq slashless_group, At]
  refine and_congr_right fun _ => ?_
  cases place
  rw [Place.mk.injEq]

theorem file_of_pair? {type id : String} (h : call.pair? = some (type, id)) :
    call.group = fileSafe type ∧ call.id = id := by
  cases call with
  | save item => cases h; exact ⟨rfl, rfl⟩
  | remove type id => cases h; exact ⟨rfl, rfl⟩
  | createMapping name text => cases h

/-- Calls on one item have one file. -/
theorem at_congr_pair? {other : StoreCall} {place : Place} {pair : String × String}
    (h : call.pair? = some pair) (h' : other.pair? = some pair) :
    call.At place ↔ other.At place := by
  obtain ⟨group, id⟩ := file_of_pair? h
  obtain ⟨group', id'⟩ := file_of_pair? h'
  rw [At, At, group, id, group', id']

/-- What the file of a call says after it. -/
def leaves (call : StoreCall) : Option Saying :=
  call.text?.bind fun text =>
    saying? call.group (fileSafe call.id ++ ".json") (.file (.text text))

theorem length_path_le : (stack (call.path directory)).length ≤ (stack directory).length + 2 := by
  rw [path, stack_fileName slashless_group, List.length_cons]
  have short := @length_push_le (stack directory) call.group
  omega

variable {files files' : FileTree} {place : Place}

theorem Changes.inOrder (changes : call.Changes directory files files')
    (order : files.InOrder directory) : files'.InOrder directory := by
  rw [Changes] at changes
  split at changes
  · exact order.of_writeAll length_path_le changes
  · rcases changes with ⟨-, rfl⟩ | removed
    · exact order
    · exact order.of_removeFile removed

/-- Two parts below the directory of the store a call changes its file and nothing else. -/
theorem Changes.at?_two_below {group name : String} (changes : call.Changes directory files files')
    (isGroup : IsPart group) (isFile : IsPart name) :
    files'.at? (name :: group :: stack directory) =
      if name :: group :: stack directory = stack (call.path directory) then
        call.text?.map fun text => .file (.text text)
      else files.at? (name :: group :: stack directory) := by
  rw [Changes] at changes
  split at changes
  · next text isText =>
    rw [FileTree.at?_writeAll_two_below length_path_le changes isGroup isFile, isText]
    rfl
  · next isText =>
    rw [isText]
    rcases changes with ⟨absent, rfl⟩ | removed
    · split
      · next same =>
        rw [FileTree.node?_eq, ← same, if_neg (List.cons_ne_nil _ _)] at absent
        exact absent
      · rfl
    · exact (FileTree.at?_removeFile removed (FileTree.isPart_two_below isGroup isFile)).2

/-- After a call its own file says what the call left there, and the others what they said. -/
theorem Changes.says_iff (changes : call.Changes directory files files')
    (before : files.Grouped directory) (after : files'.Grouped directory) {saying : Saying} :
    Says files' directory place saying ↔
      if call.At place then call.leaves = some saying else Says files directory place saying := by
  rw [Store.says_iff after]
  split
  · next isAt =>
    have samePath := (@at_iff call directory place).1 isAt
    obtain ⟨isName, rfl⟩ := isAt
    have isFile : IsName (fileSafe call.id ++ ".json") := isName_json slashless_fileSafe
    rw [changes.at?_two_below isName.isPart isFile.isPart, if_pos samePath, leaves,
      Option.bind_map, Function.comp_def, and_iff_right isName.isPart, and_iff_right isFile.isPart]
  · next elsewhere =>
    rw [Store.says_iff before]
    refine and_congr_right fun isGroup => and_congr_right fun isFile => ?_
    rw [changes.at?_two_below isGroup isFile, if_neg]
    rwa [← at_iff]

/-! ## What a call leaves in its file -/

/-- The items that a call saves have texts that read back. -/
def Lasts : StoreCall → Prop
  | save item => item.Lasts
  | remove _ _ => True
  | createMapping _ _ => True

theorem saying?_json {group id text : String} : saying? group (id ++ ".json") (.file (.text text)) =
    if id = "" then some .nothing
    else if group = mappingsName then (Json.parse? text).map (.mapping id)
    else ((Json.read? text).bind Item.ofDocument?).map .item := by
  rw [saying?.eq_def]
  by_cases empty : id = ""
  · have noStem : stem? (id ++ ".json") = none := by
      apply Option.eq_none_iff_forall_ne_some.2
      intro stem isStem
      obtain ⟨same, nonempty⟩ := stem?_eq_some.1 isStem
      exact nonempty (((String.append_left_inj _).1 same).symm.trans empty)
    rw [noStem, if_pos empty]
  · rw [stem?_eq_some.2 ⟨rfl, empty⟩, if_neg empty]

theorem leaves_save {item : Item} (lasts : item.Lasts) : (save item).leaves =
    if item.id = "" then some .nothing
    else if fileSafe item.type = mappingsName then
      some (.mapping (fileSafe item.id) item.toJson.canonical)
    else some (.item item) := by
  simp only [leaves, text?, group, id, Option.bind_some, saying?_json, fileSafe_eq_empty,
    lasts.parse, lasts.read, Option.map_some]

theorem leaves_createMapping {name text : String} : (createMapping name text).leaves =
    if name = "" then some .nothing else (Json.parse? text).map (.mapping (fileSafe name)) := by
  simp only [leaves, text?, group, id, Option.bind_some, saying?_json, fileSafe_eq_empty,
    if_true]

/-- Only saving leaves an item behind, the saved one. -/
theorem leaves_eq_item (lasts : call.Lasts) {item : Item} : call.leaves = some (.item item) ↔
    call = save item ∧ item.id ≠ "" ∧ fileSafe item.type ≠ mappingsName := by
  cases call with
  | save saved =>
    rw [leaves_save lasts, save.injEq]
    grind
  | remove type id => simp [leaves, text?]
  | createMapping name text =>
    rw [leaves_createMapping]
    split
    · simp
    · cases Json.parse? text <;> simp

theorem parse?_of_createMapping {name text : String}
    (done : (createMapping name text).on store = (.ok (), store')) :
    ∃ value, Json.parse? text = some value := by
  obtain ⟨-, value, parsed, -⟩ := createMapping_eq_ok (taken_eq_ok done)
  exact ⟨value, parsed⟩

theorem leaves_ne_none (done : call.on store = (.ok (), store')) (lasts : call.Lasts)
    (written : call.text? ≠ none) : call.leaves ≠ none := by
  cases call with
  | save item => rw [leaves_save lasts]; grind
  | remove type id => contradiction
  | createMapping name text =>
    obtain ⟨value, parsed⟩ := parse?_of_createMapping done
    rw [leaves_createMapping, parsed]
    grind

end StoreCall

/-! ## Sequences of calls -/

/-- A store is kept in a directory that is in order and can be read. -/
structure Store.KeptIn (store : Store) (directory : String) : Prop where
  isKept : store.directory = some directory
  order : store.files.InOrder directory
  readable : Readable store.files directory

/-- What a store came to be by calls, of which only some may fail. The calls that did what they
should are listed, the last one first. -/
inductive Store.After (fails : StoreError → Prop) (start : Store) : List StoreCall → Store → Prop
  | start : After fails start [] start
  | done {calls : List StoreCall} {call : StoreCall} {store store' : Store} :
    After fails start calls store → call.on store = (.ok (), store') →
      After fails start (call :: calls) store'
  | failed {calls : List StoreCall} {call : StoreCall} {store store' : Store} {e : StoreError} :
    After fails start calls store → call.on store = (.error e, store') → fails e →
      After fails start calls store'

/-- Make calls one after the other, the last one of the list first. -/
def StoreCall.onAll (store : Store) (calls : List StoreCall) : Store :=
  calls.foldr (fun call store => (call.on store).2) store

namespace Store

variable {store store' start : Store} {call : StoreCall} {calls : List StoreCall}
  {directory : String} {e : StoreError} {fails : StoreError → Prop} {place : Place}
  {saying : Saying}

theorem After.next (after : After fails start calls (StoreCall.onAll start calls))
    (done : (call.on (StoreCall.onAll start calls)).1.isOk = true) :
    After fails start (call :: calls) (StoreCall.onAll start (call :: calls)) := by
  refine after.done (Prod.ext ?_ rfl)
  cases answer : (call.on (StoreCall.onAll start calls)).1 with
  | ok value => rfl
  | error e => rw [answer] at done; cases done

theorem KeptIn.on (keptIn : store.KeptIn directory) (done : call.on store = (.ok (), store'))
    (lasts : call.Lasts) : store'.KeptIn directory := by
  obtain ⟨sameDirectory, changes⟩ := StoreCall.changes_of_on keptIn.isKept done
  have order := changes.inOrder keptIn.order
  refine ⟨sameDirectory, order, ?_⟩
  rintro ⟨group, name, node⟩ listed
  obtain ⟨isGroup, isFile, found⟩ := (mem_listing_iff order.toGrouped).1 listed
  rw [changes.at?_two_below isGroup isFile] at found
  split at found
  · next isPath =>
    -- The file of the call: it holds the text of the call, which was made to be read back.
    obtain ⟨text, isText, rfl⟩ := Option.map_eq_some_iff.1 found
    obtain ⟨-, same⟩ := (@StoreCall.at_iff call directory ⟨group, name⟩).2 isPath
    cases same
    have read := StoreCall.leaves_ne_none done lasts (by simp [isText])
    rw [StoreCall.leaves, isText, Option.bind_some] at read
    exact Option.isSome_iff_ne_none.2 read
  · exact keptIn.readable _ ((mem_listing_iff keptIn.order.toGrouped).2 ⟨isGroup, isFile, found⟩)

theorem KeptIn.says_on (keptIn : store.KeptIn directory) (done : call.on store = (.ok (), store')) :
    Says store'.files directory place saying ↔
      if call.At place then call.leaves = some saying
      else Says store.files directory place saying := by
  obtain ⟨-, changes⟩ := StoreCall.changes_of_on keptIn.isKept done
  exact changes.says_iff keptIn.order.toGrouped (changes.inOrder keptIn.order).toGrouped

/-- What the file at a place says after calls, the last one first. -/
def Standing (files : FileTree) (directory : String) :
    List StoreCall → Place → Saying → Prop
  | [], place, saying => Says files directory place saying
  | call :: earlier, place, saying =>
    if call.At place then call.leaves = some saying
    else Standing files directory earlier place saying

theorem KeptIn.after (keptIn : start.KeptIn directory) (after : After fails start calls store)
    (lasts : ∀ call ∈ calls, call.Lasts) : store.KeptIn directory := by
  induction after with
  | start => exact keptIn
  | done after done ih =>
    obtain ⟨here, earlier⟩ := List.forall_mem_cons.1 lasts
    exact (ih earlier).on done here
  | failed after failed _ ih =>
    obtain ⟨sameDirectory, sameFiles⟩ := StoreCall.files_of_on_error failed
    have before := ih lasts
    constructor
    · exact sameDirectory.trans before.isKept
    · rw [sameFiles]; exact before.order
    · rw [sameFiles]; exact before.readable

theorem KeptIn.says_after (keptIn : start.KeptIn directory) (after : After fails start calls store)
    (lasts : ∀ call ∈ calls, call.Lasts) : Says store.files directory place saying ↔
      Standing start.files directory calls place saying := by
  induction after with
  | start => exact Iff.rfl
  | done after done ih =>
    obtain ⟨here, earlier⟩ := List.forall_mem_cons.1 lasts
    rw [(keptIn.after after earlier).says_on done, Standing, ih earlier]
  | failed after failed _ ih =>
    rw [(StoreCall.files_of_on_error failed).2]
    exact ih lasts

/-- A file tells of an item since a call saved it there, or since before the calls. -/
theorem Standing.item {files : FileTree} {item : Item} (lasts : ∀ call ∈ calls, call.Lasts)
    (h : Standing files directory calls place (.item item)) :
    (.save item ∈ calls ∧ (StoreCall.save item).At place ∧ item.id ≠ "" ∧
      fileSafe item.type ≠ mappingsName) ∨
    ((∀ call ∈ calls, ¬ call.At place) ∧ Tells files directory place item) := by
  induction calls with
  | nil => exact .inr ⟨by simp, h⟩
  | cons call earlier ih =>
    obtain ⟨here, before⟩ := List.forall_mem_cons.1 lasts
    rw [Standing] at h
    split at h
    · next isAt =>
      obtain ⟨rfl, hasId, notMappings⟩ := (StoreCall.leaves_eq_item here).1 h
      exact .inl ⟨List.mem_cons_self, isAt, hasId, notMappings⟩
    · next elsewhere =>
      rcases ih before h with ⟨saved, rest⟩ | ⟨untouched, told⟩
      · exact .inl ⟨List.mem_cons_of_mem _ saved, rest⟩
      · exact .inr ⟨List.forall_mem_cons.2 ⟨elsewhere, untouched⟩, told⟩

/-- A store opened on a directory is kept there, if that was an empty directory or the directory of
a tree. -/
theorem keptIn_of_openOn {files : FileTree} (opened : openOn files directory = .ok store)
    (fresh : files.below directory = [] ∨ files.IsTree) : store.KeptIn directory := by
  obtain ⟨made, sameDirectory, readable, -⟩ := reads_of_openOn opened
  refine ⟨sameDirectory, FileTree.Grouped.inOrder ?_ made, readable⟩
  rcases fresh with empty | isTree
  · exact FileTree.grouped_of_below_eq_nil empty
  · exact isTree.grouped

theorem KeptIn.reopens (keptIn : store.KeptIn directory) :
    ∃ reopened, openOn store.files directory = .ok reopened ∧
      reopened.Reads store.files directory := by
  obtain ⟨reopened, opened, -, reads⟩ := openOn_of_readable keptIn.order keptIn.readable
  exact ⟨reopened, opened, reads⟩

/-! ## A store on a new directory -/

/-- The store opened on a directory of an empty tree. -/
def fresh : Store :=
  { directory := some "data", files := { nodes := Table.empty.insert "/data" .directory } }

theorem openOn_fresh : openOn {} "data" = .ok fresh := rfl

end Store

end Clickstream
