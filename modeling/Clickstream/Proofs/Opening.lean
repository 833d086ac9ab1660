import Clickstream.Proofs.Trees
import Clickstream.Server

/-! # Opening an empty directory

A directory that holds nothing holds nothing either once it and the directories above it were made,
and a server opened on it starts without items, definitions and waiting goals.
-/

namespace Clickstream

namespace DiskPath

theorem length_ofStack_tail {part : String} {rest : List String} :
    (ofStack rest).length ≤ (ofStack (part :: rest)).length := by
  rw [ofStack, ofStack, List.reverse_cons]
  cases rest with
  | nil => simp
  | cons second rest =>
    rw [String.intercalate_append_of_ne_nil (by simp) (by simp)]
    simp only [String.length_append]
    omega

theorem length_ofStack_of_mem_above {parts : List String} {upper : List String}
    (h : upper ∈ above parts) : (ofStack upper).length ≤ (ofStack parts).length := by
  induction parts with
  | nil => cases h
  | cons part rest ih =>
    rcases List.mem_cons.1 h with rfl | h
    · exact length_ofStack_tail
    · exact Nat.le_trans (ih h) length_ofStack_tail

theorem length_normal_le {directory : String} :
    (normal directory).length ≤ (beneath directory).length := by
  rw [normal, beneath]
  cases stack directory with
  | nil => exact Nat.le_refl _
  | cons part rest =>
    rw [String.length_append]
    exact Nat.le_add_right _ _

end DiskPath

/-- A new pair that a listing leaves out does not change the listing. -/
theorem Fields.filterMap_insert {V W : Type} {fields : Fields V} {name : String} {value : V}
    {list : String × V → Option W} (new : fields.get? name = none)
    (skipped : list (name, value) = none) :
    (fields.insert name value).filterMap list = fields.filterMap list := by
  induction fields with
  | nil => simp [insert, skipped]
  | cons head rest ih =>
    rw [get?_cons] at new
    split at new
    · cases new
    · next other =>
      rw [insert, if_neg other]
      split
      · rw [List.filterMap_cons, skipped]
      · rw [List.filterMap_cons, List.filterMap_cons, ih new]

namespace FileTree

variable {tree tree' : FileTree} {directory : String}

/-- Making a directory with a shorter path adds nothing below another one. -/
theorem below_makeDirectory {parts : List String}
    (short : (DiskPath.ofStack parts).length ≤ (DiskPath.normal directory).length)
    (made : tree.makeDirectory parts = some tree') :
    tree'.below directory = tree.below directory := by
  rw [makeDirectory] at made
  split at made
  · cases made; rfl
  · cases made
  · next new =>
    cases made
    rw [below, below]
    refine Fields.filterMap_insert new (if_neg ?_)
    -- A path below the directory is longer than the directory's, and the new one is not.
    rintro ⟨starts, other⟩
    have start := String.startsWith_string_iff.1 starts
    have longer := start.length_le
    have least := @DiskPath.length_normal_le directory
    rw [String.length_toList, String.length_toList] at longer
    apply other
    apply String.toList_injective
    refine (start.eq_of_length ?_).symm
    rw [String.length_toList, String.length_toList]
    omega

theorem below_makeDirectories (made : tree.makeDirectories directory = some tree') :
    tree'.below directory = tree.below directory := by
  refine makeDirectories_induction rfl (fun upper onPath _ before after made same => ?_) made
  refine (below_makeDirectory ?_ made).trans same
  rcases List.mem_cons.1 onPath with rfl | isAbove
  · exact Nat.le_refl _
  · exact DiskPath.length_ofStack_of_mem_above isAbove

end FileTree

/-- A store opened on an empty directory holds nothing. -/
theorem Store.contents_of_openOn {files : FileTree} {directory : String} {store : Store}
    (empty : files.children directory = []) (opened : Store.openOn files directory = .ok store) :
    store.items = {} ∧ store.mappings = {} := by
  rw [openOn] at opened
  split at opened
  · cases opened
  · next files' made =>
    have same : files'.children directory = [] := by
      rw [FileTree.children, FileTree.below_makeDirectories made]
      exact empty
    rw [readDirectory, same] at opened
    cases opened
    exact ⟨rfl, rfl⟩

/-- A server that was just opened has the store of its directory, and nothing else yet. -/
theorem Server.openOn_eq_ok {files : FileTree} {config : ServerConfig} {start : Engine} :
    Server.openOn files config = .ok start ↔ ∃ store,
      Store.openOn files config.dataDirectory = .ok store ∧
        start = { store, settings := config.settings } := by
  rw [openOn]
  split
  · next store isStore => simp [isStore, eq_comm]
  · next failed => simp [failed]

theorem Server.items_of_openOn {files : FileTree} {config : ServerConfig} {start : Engine}
    (empty : files.children config.dataDirectory = [])
    (opened : Server.openOn files config = .ok start) :
    start.store.items = {} ∧ start.pending = {} ∧ start.settings = config.settings := by
  obtain ⟨store, isStore, rfl⟩ := openOn_eq_ok.1 opened
  exact ⟨(Store.contents_of_openOn empty isStore).1, rfl, rfl⟩

theorem Server.registry_of_openOn {files : FileTree} {config : ServerConfig} {start : Engine}
    (empty : files.children config.dataDirectory = [])
    (opened : Server.openOn files config = .ok start) :
    start.registry = {} ∧ start.store.mappings = {} := by
  obtain ⟨store, isStore, rfl⟩ := openOn_eq_ok.1 opened
  exact ⟨rfl, (Store.contents_of_openOn empty isStore).2⟩

end Clickstream
