import Mathlib.Data.Prod.Lex
import Mathlib.Data.String.Basic
import Clickstream.Proofs.ItemFiles
import Clickstream.Proofs.Reading

/-! # The file that counts

The files of a store are read in the order of their groups and names. Of the files that tell of one
item the last one read counts, and a mapping has only one file that could tell of it. So what a
store opened on a directory holds is said by what each of its files says.
-/

namespace Clickstream

open DiskPath

/-! ## The order of reading -/

theorem lt_of_append_lt_append {α : Type} [LinearOrder α] {start l l' : List α}
    (h : start ++ l < start ++ l') : l < l' := by
  induction start with
  | nil => exact h
  | cons a rest ih =>
    rw [List.cons_append, List.cons_append, List.cons_lt_cons_iff] at h
    rcases h with less | ⟨-, h⟩
    · exact absurd less (lt_irrefl a)
    · exact ih h

/-- The last one of a sorted list that has an answer gives it. -/
theorem findSome?_reverse_eq_some {α β γ : Type} [LinearOrder β] {key : α → β} {l : List α}
    (sorted : l.Pairwise fun a b => key a < key b) {f : α → Option γ} {c : γ} :
    l.reverse.findSome? f = some c ↔
      ∃ a ∈ l, f a = some c ∧ ∀ b ∈ l, (f b).isSome = true → key b ≤ key a := by
  induction l with
  | nil => simp
  | cons first rest ih =>
    obtain ⟨before, sorted⟩ := List.pairwise_cons.1 sorted
    rw [List.reverse_cons, List.findSome?_append, List.findSome?_singleton, Option.or_eq_some_iff,
      ih sorted]
    constructor
    · rintro (⟨a, member, found, last⟩ | ⟨nothing, found⟩)
      · refine ⟨a, List.mem_cons_of_mem _ member, found, List.forall_mem_cons.2 ⟨?_, last⟩⟩
        exact fun _ => (before a member).le
      · refine ⟨first, List.mem_cons_self, found, List.forall_mem_cons.2 ⟨fun _ => le_rfl, ?_⟩⟩
        intro b member answers
        rw [List.findSome?_eq_none_iff] at nothing
        rw [nothing b (List.mem_reverse.2 member)] at answers
        cases answers
    · rintro ⟨a, member, found, last⟩
      obtain ⟨-, lastOfRest⟩ := List.forall_mem_cons.1 last
      rcases List.mem_cons.1 member with rfl | member
      · refine .inr ⟨?_, found⟩
        rw [List.findSome?_eq_none_iff]
        intro b later
        have later := List.mem_reverse.1 later
        rw [← Option.not_isSome_iff_eq_none]
        exact fun answers => absurd (before b later) (lastOfRest b later answers).not_gt
      · exact .inl ⟨a, member, found, lastOfRest⟩

theorem FileTree.sorted_children {tree : FileTree} {directory : String} :
    (tree.children directory).Pairwise fun a b => a.1 < b.1 := by
  rw [children, below]
  apply List.Pairwise.filter
  refine List.Pairwise.filterMap _ ?_ tree.nodes.ascending
  rintro ⟨path, node⟩ ⟨path', node'⟩ less a shown b shown'
  dsimp only at shown shown' less
  split at shown
  · next starts =>
    split at shown'
    · next starts' =>
      obtain rfl := Option.some.inj shown
      obtain rfl := Option.some.inj shown'
      obtain ⟨rest, same⟩ := String.startsWith_string_iff.1 starts.1
      obtain ⟨rest', same'⟩ := String.startsWith_string_iff.1 starts'.1
      rw [String.lt_iff, ← same, ← same'] at less
      rw [String.lt_iff, String.toList_ofList, String.toList_ofList, ← same, ← same',
        List.drop_left, List.drop_left]
      exact lt_of_append_lt_append less
    · cases shown'
  · cases shown

namespace Store

/-- Where a file of a store is: in one of its directories, under a name. -/
structure Place where
  group : String
  name : String

namespace Place

/-- Places in the order in which their files are read. -/
def key (place : Place) : String ×ₗ String := toLex (place.group, place.name)

theorem key_injective : Function.Injective key := by
  rintro ⟨group, name⟩ ⟨group', name'⟩ same
  cases same
  rfl

instance : LinearOrder Place := LinearOrder.lift' key key_injective

theorem lt_iff {place place' : Place} : place < place' ↔
    place.group < place'.group ∨ place.group = place'.group ∧ place.name < place'.name :=
  Prod.Lex.toLex_lt_toLex

end Place

/-- The place of a listed file. -/
def placeOf (file : String × String × Node) : Place := ⟨file.1, file.2.1⟩

variable {files : FileTree} {directory type id name : String} {place place' : Place}

theorem sorted_groupFiles {group : String} {node : Node} :
    (groupFiles files directory group node).Pairwise fun a b => placeOf a < placeOf b := by
  cases node with
  | file content => exact List.Pairwise.nil
  | directory =>
    rw [groupFiles, List.pairwise_map]
    refine FileTree.sorted_children.imp ?_
    intro a b less
    exact Place.lt_iff.2 (.inr ⟨rfl, less⟩)

theorem group_of_mem_groupFiles {group : String} {node : Node} {file : String × String × Node}
    (h : file ∈ groupFiles files directory group node) : file.1 = group := by
  cases node with
  | file content => cases h
  | directory =>
    obtain ⟨child, -, rfl⟩ := List.mem_map.1 h
    rfl

theorem sorted_listing : (listing files directory).Pairwise fun a b => placeOf a < placeOf b := by
  rw [listing, List.pairwise_flatMap]
  refine ⟨fun child _ => sorted_groupFiles, FileTree.sorted_children.imp ?_⟩
  intro first second less file inFirst file' inSecond
  apply Place.lt_iff.2
  left
  rw [placeOf, placeOf, group_of_mem_groupFiles inFirst, group_of_mem_groupFiles inSecond]
  exact less

/-! ## What each file says -/

/-- The file at a place is there and says something. -/
def Says (files : FileTree) (directory : String) (place : Place) (saying : Saying) : Prop :=
  ∃ node, (place.group, place.name, node) ∈ listing files directory ∧
    saying? place.group place.name node = some saying

theorem findSome?_sayings {α : Type} {f : Saying → Option α} {a : α} :
    (sayings files directory).reverse.findSome? f = some a ↔
      ∃ place saying, Says files directory place saying ∧ f saying = some a ∧
        ∀ place' saying', Says files directory place' saying' → (f saying').isSome = true →
          place' ≤ place := by
  have joined : (sayings files directory).reverse.findSome? f =
      (listing files directory).reverse.findSome? fun file =>
        (saying? file.1 file.2.1 file.2.2).bind f := by
    rw [sayings, ← List.filterMap_reverse]
    induction (listing files directory).reverse with
    | nil => rfl
    | cons file rest ih =>
      rw [List.filterMap_cons, List.findSome?_cons]
      cases saying? file.1 file.2.1 file.2.2 with
      | none => exact ih
      | some saying =>
        dsimp only [Option.bind_some]
        rw [List.findSome?_cons, ih]
  rw [joined, findSome?_reverse_eq_some sorted_listing]
  constructor
  · rintro ⟨⟨group, name, node⟩, listed, found, last⟩
    obtain ⟨saying, said, answer⟩ := Option.bind_eq_some_iff.1 found
    refine ⟨⟨group, name⟩, saying, ⟨node, listed, said⟩, answer, ?_⟩
    rintro place' saying' ⟨node', listed', said'⟩ answers
    refine last _ listed' ?_
    dsimp only
    rw [said']
    exact answers
  · rintro ⟨place, saying, ⟨node, listed, said⟩, answer, last⟩
    refine ⟨_, listed, ?_, ?_⟩
    · dsimp only
      rw [said]
      exact answer
    · rintro ⟨group', name', node'⟩ listed' answers
      obtain ⟨a, answer'⟩ := Option.isSome_iff_exists.1 answers
      obtain ⟨saying', said', found'⟩ := Option.bind_eq_some_iff.1 answer'
      refine last ⟨group', name'⟩ saying' ⟨node', listed', said'⟩ ?_
      rw [found']
      rfl

theorem mem_listing {group : String} {node : Node} :
    (group, name, node) ∈ listing files directory ↔
      (group, .directory) ∈ files.children directory ∧
        (name, node) ∈ files.children (directory ++ "/" ++ group) := by
  rw [listing, List.mem_flatMap]
  constructor
  · rintro ⟨⟨group', node'⟩, isChild, listed⟩
    obtain rfl := group_of_mem_groupFiles listed
    cases node' with
    | file content => cases listed
    | directory =>
      obtain ⟨child, isFile, same⟩ := List.mem_map.1 listed
      cases same
      exact ⟨isChild, isFile⟩
  · rintro ⟨isChild, isFile⟩
    exact ⟨_, isChild, List.mem_map.2 ⟨_, isFile, rfl⟩⟩

/-- In a directory in order the files are listed that are two parts below it. -/
theorem mem_listing_iff (grouped : files.Grouped directory) {group : String} {node : Node} :
    (group, name, node) ∈ listing files directory ↔
      IsPart group ∧ IsPart name ∧ files.at? (name :: group :: stack directory) = some node := by
  rw [mem_listing, FileTree.mem_children, FileTree.mem_children]
  constructor
  · rintro ⟨⟨isGroup, found⟩, isFile, foundFile⟩
    have isName : IsName group := grouped.isName group isGroup (by simp [found])
    rw [stack_append_name isName] at foundFile
    exact ⟨isGroup, isFile, foundFile⟩
  · rintro ⟨isGroup, isFile, foundFile⟩
    have found := grouped.inGroup group name isGroup isFile (by simp [foundFile])
    have isName : IsName group := grouped.isName group isGroup (by simp [found])
    rw [stack_append_name isName]
    exact ⟨⟨isGroup, found⟩, isFile, foundFile⟩

theorem Says.unique {saying saying' : Saying} (h : Says files directory place saying)
    (h' : Says files directory place saying') : saying = saying' := by
  obtain ⟨node, listed, said⟩ := h
  obtain ⟨node', listed', said'⟩ := h'
  have found := (FileTree.mem_children.1 (mem_listing.1 listed).2).2
  have found' := (FileTree.mem_children.1 (mem_listing.1 listed').2).2
  rw [found] at found'
  cases found'
  rw [said] at said'
  exact Option.some.inj said'

/-- In a directory in order a file that can be read says what the node at its path says. -/
theorem says_iff (grouped : files.Grouped directory) {saying : Saying} :
    Says files directory place saying ↔
      IsPart place.group ∧ IsPart place.name ∧
        (files.at? (place.name :: place.group :: stack directory)).bind
          (saying? place.group place.name) = some saying := by
  simp only [Says, mem_listing_iff grouped, Option.bind_eq_some_iff, and_assoc, exists_and_left]

/-! ## What is read back -/

/-- Of the files that tell of an item the last one says just this. -/
def Told (tells : Place → Item → Prop) (item : Item) : Prop :=
  ∃ place, tells place item ∧ ∀ place' other, tells place' other →
    other.type = item.type → other.id = item.id → place' ≤ place

/-- The file at a place tells of an item. -/
def Tells (files : FileTree) (directory : String) (place : Place) (item : Item) : Prop :=
  Says files directory place (.item item)

/-- A store holds what the files in a directory tell. -/
structure Reads (store : Store) (files : FileTree) (directory : String) : Prop where
  load : ∀ type id item, store.load type id = some item ↔
    item.type = type ∧ item.id = id ∧ Told (Tells files directory) item
  mapping : ∀ name value, store.mapping? name = some value ↔
    Says files directory ⟨mappingsName, name ++ ".json"⟩ (.mapping name value)

theorem Saying.itemAt?_eq_some {saying : Saying} {item : Item} :
    saying.itemAt? type id = some item ↔
      saying = .item item ∧ item.type = type ∧ item.id = id := by
  cases saying with
  | nothing => simp [itemAt?]
  | mapping name value => simp [itemAt?]
  | item found =>
    rw [itemAt?, Option.ite_none_right_eq_some, Option.some.injEq, Saying.item.injEq]
    constructor
    · rintro ⟨⟨rfl, rfl⟩, rfl⟩
      exact ⟨rfl, rfl, rfl⟩
    · rintro ⟨rfl, rfl, rfl⟩
      exact ⟨⟨rfl, rfl⟩, rfl⟩

theorem Saying.mappingAt?_eq_some {saying : Saying} {value : Json} :
    saying.mappingAt? name = some value ↔ saying = .mapping name value := by
  cases saying with
  | nothing => simp [mappingAt?]
  | item found => simp [mappingAt?]
  | mapping other value' =>
    rw [mappingAt?, Option.ite_none_right_eq_some, Option.some.injEq, Saying.mapping.injEq,
      eq_comm (a := name)]

theorem saying?_eq_mapping {group file : String} {node : Node} {value : Json}
    (h : saying? group file node = some (.mapping name value)) :
    group = mappingsName ∧ file = name ++ ".json" := by
  rw [saying?.eq_def] at h
  split at h
  · cases h
  · next stem text isStem =>
    split at h
    · next isMappings =>
      obtain ⟨value', -, same⟩ := Option.map_eq_some_iff.1 h
      cases same
      exact ⟨isMappings, (stem?_eq_some.1 isStem).1⟩
    · obtain ⟨item, -, same⟩ := Option.map_eq_some_iff.1 h
      cases same
  · cases h

theorem reads_of_readDirectory {store : Store} {contents : Contents}
    (read : readDirectory files directory = .ok contents) (items : store.items = contents.1)
    (mappings : store.mappings = contents.2) : store.Reads files directory := by
  obtain ⟨-, rfl⟩ := readDirectory_eq_ok.1 read
  constructor
  · intro type id item
    have found : store.load type id =
        (sayings files directory).reverse.findSome? (Saying.itemAt? type id) := by
      have all := @load_foldl_addTo (sayings files directory) ({}, {}) type id
      rw [load, items]
      exact all.trans (Option.or_none)
    rw [found, findSome?_sayings]
    simp only [Saying.itemAt?_eq_some, Option.isSome_iff_exists]
    constructor
    · rintro ⟨place, _, told, ⟨rfl, ofType, ofId⟩, last⟩
      refine ⟨ofType, ofId, place, told, ?_⟩
      intro place' other told' sameType sameId
      exact last place' _ told' ⟨other, rfl, sameType.trans ofType, sameId.trans ofId⟩
    · rintro ⟨ofType, ofId, place, told, last⟩
      refine ⟨place, _, told, ⟨rfl, ofType, ofId⟩, ?_⟩
      rintro place' _ told' ⟨other, rfl, otherType, otherId⟩
      exact last place' other told' (otherType.trans ofType.symm) (otherId.trans ofId.symm)
  · intro name value
    have found : store.mapping? name =
        (sayings files directory).reverse.findSome? (Saying.mappingAt? name) := by
      have all := @get?_foldl_addTo (sayings files directory) ({}, {}) name
      rw [mapping?, mappings]
      exact all.trans (Option.or_none)
    have placed {place : Place} {other : Json}
        (told : Says files directory place (.mapping name other)) :
        place = ⟨mappingsName, name ++ ".json"⟩ := by
      obtain ⟨node, -, said⟩ := told
      obtain ⟨isMappings, isFile⟩ := saying?_eq_mapping said
      cases place
      cases isMappings
      cases isFile
      rfl
    rw [found, findSome?_sayings]
    simp only [Saying.mappingAt?_eq_some, Option.isSome_iff_exists]
    constructor
    · rintro ⟨place, _, told, rfl, -⟩
      rw [← placed told]
      exact told
    · intro told
      refine ⟨_, _, told, rfl, ?_⟩
      rintro place' _ told' ⟨other, rfl⟩
      rw [placed told']

/-- A store opened on a directory holds what the files in it tell. -/
theorem reads_of_openOn {store : Store} (opened : openOn files directory = .ok store) :
    files.makeDirectories directory = some store.files ∧ store.directory = some directory ∧
      Readable store.files directory ∧ store.Reads store.files directory := by
  rw [openOn] at opened
  split at opened
  · cases opened
  · next files' made =>
    cases read : readDirectory files' directory with
    | error e => rw [read] at opened; cases opened
    | ok contents =>
      rw [read] at opened
      cases opened
      exact ⟨made, rfl, (readDirectory_eq_ok.1 read).1, reads_of_readDirectory read rfl rfl⟩

/-- A directory in order can be opened if all its files can be read, and opening it changes none. -/
theorem openOn_of_readable (order : files.InOrder directory) (readable : Readable files directory) :
    ∃ store, openOn files directory = .ok store ∧ store.files = files ∧
      store.Reads files directory := by
  have made : files.makeDirectories directory = some files :=
    FileTree.makeDirectories_of_exist order.fits order.made
  have read := readDirectory_eq_ok.2 ⟨readable, rfl⟩
  rw [openOn, made]
  dsimp only
  rw [read]
  exact ⟨_, rfl, rfl, reads_of_readDirectory read rfl rfl⟩

end Store

end Clickstream
