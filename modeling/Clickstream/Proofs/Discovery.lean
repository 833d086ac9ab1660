import Clickstream.ModuleDirectory
import Clickstream.Proofs.TreeChanges

/-! # The modules in a directory

Whatever a tree of files holds, the modules that are found in one of its directories are named for
the directories that they are in, so no two of them share their id. Every directory there is a
module.
-/

namespace Clickstream

open DiskPath

namespace FileTree

variable {tree : FileTree} {directory : String}

/-- A directory lists every name once. -/
theorem nodup_children : ((tree.children directory).map Prod.fst).Nodup := by
  have below : ((tree.below directory).map Prod.fst).Nodup := by
    refine List.pairwise_map.2 (List.Pairwise.filterMap _ ?_ tree.nodes.ascending)
    -- Two paths that leave the same name below the directory are the same path.
    rintro ⟨one, _⟩ ⟨two, _⟩ less _ shown _ shown' same
    dsimp only at less shown shown'
    split at shown
    · next starts =>
      split at shown'
      · next starts' =>
        rw [← Option.some.inj shown, ← Option.some.inj shown'] at same
        obtain ⟨rest, isOne⟩ := String.startsWith_string_iff.1 starts.1
        obtain ⟨rest', isTwo⟩ := String.startsWith_string_iff.1 starts'.1
        dsimp only at same
        rw [← isOne, ← isTwo, List.drop_left, List.drop_left, String.ofList_inj] at same
        rw [same, isTwo] at isOne
        rw [String.toList_inj.1 isOne] at less
        exact String.lt_irrefl _ less
      · cases shown'
    · cases shown
  exact below.sublist (List.filter_sublist.map _)

end FileTree

namespace ModuleDirectory

variable {files : FileTree} {directory : String} {modules : List ModuleDirectory}

variable {module : ModuleDirectory}

/-- A module is named for the directory that it is in. -/
theorem openAt_eq_ok {root : String} : openAt files root = .ok module ↔
    files.isDirectory root = true ∧ module.root = root ∧ name? root = some module.id := by
  rw [openAt]
  cases isDirectory : files.isDirectory root with
  | false => simp
  | true =>
    cases named : name? root with
    | none => simp
    | some id =>
      obtain ⟨id', root'⟩ := module
      simp [eq_comm, and_comm]

/-- A directory among some entries is opened as a module before the others are. -/
theorem openAll_cons_eq_ok {name : String} {rest : List (String × Node)} :
    openAll files directory ((name, .directory) :: rest) = .ok modules ↔
      ∃ module found, openAt files (join directory name) = .ok module ∧
        openAll files directory rest = .ok found ∧ modules = module :: found := by
  rw [openAll]
  cases openAt files (join directory name) with
  | error e => exact ⟨nofun, nofun⟩
  | ok module =>
    cases openAll files directory rest with
    | error e => exact ⟨nofun, nofun⟩
    | ok found =>
      constructor
      · intro opened
        cases opened
        exact ⟨module, found, rfl, rfl, rfl⟩
      · rintro ⟨_, _, ⟨⟩, ⟨⟩, rfl⟩
        rfl

theorem ids_of_openAll {entries : List (String × Node)} (names : ∀ entry ∈ entries, IsName entry.1)
    (opened : openAll files directory entries = .ok modules) :
    (modules.map ModuleDirectory.id).Sublist (entries.map Prod.fst) := by
  induction entries generalizing modules with
  | nil =>
    cases opened
    exact .slnil
  | cons entry rest ih =>
    obtain ⟨name, node⟩ := entry
    obtain ⟨isName, others⟩ := List.forall_mem_cons.1 names
    cases node with
    | file content => exact (ih others opened).cons _
    | directory =>
      obtain ⟨module, found, first, later, rfl⟩ := openAll_cons_eq_ok.1 opened
      obtain ⟨-, -, named⟩ := openAt_eq_ok.1 first
      rw [name?_join isName] at named
      cases named
      exact (ih others later).cons_cons _

/-- No two modules in a directory share their id. -/
theorem nodup_discover (names : ∀ entry ∈ files.children directory, IsName entry.1)
    (found : discover files directory = .ok modules) :
    (modules.map ModuleDirectory.id).Nodup := by
  unfold discover at found
  split at found
  · cases found
    exact List.nodup_nil
  · cases found
  · exact FileTree.nodup_children.sublist (ids_of_openAll names found)

/-! ## Which modules are found -/

/-- A module is there in a directory, under its id. -/
structure IsIn (module : ModuleDirectory) (files : FileTree) (directory : String) : Prop where
  isName : IsName module.id
  opened : openAt files (join directory module.id) = .ok module

theorem isIn_of_openAt {id : ModuleId} (isName : IsName id)
    (opened : openAt files (join directory id) = .ok module) :
    module.IsIn files directory ∧ module.id = id := by
  obtain ⟨-, -, named⟩ := openAt_eq_ok.1 opened
  rw [name?_join isName] at named
  cases named
  exact ⟨⟨isName, opened⟩, rfl⟩

theorem IsIn.root (isIn : module.IsIn files directory) :
    module.root = join directory module.id := (openAt_eq_ok.1 isIn.opened).2.1

theorem IsIn.unique {other : ModuleDirectory} (h : other.IsIn files directory)
    (h' : module.IsIn files directory) (same : other.id = module.id) : other = module := by
  have opened := h.opened
  rw [same, h'.opened] at opened
  cases opened
  rfl

theorem isIn_of_openAll {entries : List (String × Node)}
    (names : ∀ entry ∈ entries, IsName entry.1)
    (opened : openAll files directory entries = .ok modules) :
    ∀ module ∈ modules, module.IsIn files directory := by
  induction entries generalizing modules with
  | nil => cases opened; simp
  | cons entry rest ih =>
    obtain ⟨name, node⟩ := entry
    obtain ⟨isName, others⟩ := List.forall_mem_cons.1 names
    cases node with
    | file content => exact ih others opened
    | directory =>
      obtain ⟨module, found, first, later, rfl⟩ := openAll_cons_eq_ok.1 opened
      exact List.forall_mem_cons.2 ⟨(isIn_of_openAt isName first).1, ih others later⟩

/-- All directories among some entries are modules. -/
theorem exists_openAll {entries : List (String × Node)}
    (directories : ∀ name, (name, .directory) ∈ entries →
      ∃ module, openAt files (join directory name) = .ok module) :
    ∃ modules, openAll files directory entries = .ok modules ∧
      ∀ name module, (name, .directory) ∈ entries →
        openAt files (join directory name) = .ok module → module ∈ modules := by
  induction entries with
  | nil => exact ⟨[], rfl, by simp⟩
  | cons entry rest ih =>
    obtain ⟨modules, opened, all⟩ := ih fun name member =>
      directories name (List.mem_cons_of_mem _ member)
    obtain ⟨name, node⟩ := entry
    cases node with
    | file content =>
      refine ⟨modules, opened, fun name module member => ?_⟩
      exact all name module ((List.mem_cons.1 member).resolve_left (by simp))
    | directory =>
      obtain ⟨first, isFirst⟩ := directories name List.mem_cons_self
      refine ⟨first :: modules, openAll_cons_eq_ok.2 ⟨first, modules, isFirst, opened, rfl⟩, ?_⟩
      intro other module member isModule
      rcases List.mem_cons.1 member with same | member
      · cases same
        rw [isFirst] at isModule
        cases isModule
        exact List.mem_cons_self
      · exact List.mem_cons_of_mem _ (all other module member isModule)

theorem isDirectory_join {name : String} (isName : IsName name) :
    files.isDirectory (join directory name) = true ↔
      (name, .directory) ∈ files.children directory := by
  rw [FileTree.isDirectory, decide_eq_true_iff, FileTree.node?_eq, stack_join isName,
    if_neg (List.cons_ne_nil _ _), FileTree.mem_children, and_iff_right isName.isPart]

/-- The modules in a directory are those that are found there. -/
theorem isIn_iff (isTree : files.IsTree) : module.IsIn files directory ↔
    ∃ modules, discover files directory = .ok modules ∧ module ∈ modules := by
  have names : ∀ entry ∈ files.children directory, IsName entry.1 :=
    fun _ => isTree.isName_of_children
  constructor
  · intro isIn
    obtain ⟨isDirectory, -, -⟩ := openAt_eq_ok.1 isIn.opened
    have listed := (isDirectory_join isIn.isName).1 isDirectory
    have there : files.node? directory = some .directory := by
      rw [FileTree.node?_eq]
      split
      · rfl
      · next below =>
        obtain ⟨-, found⟩ := FileTree.mem_children.1 listed
        exact isTree.inDirectory _ _ below
          (List.forall_mem_cons.2 ⟨isIn.isName, isName_stack⟩) (by simp [found])
    rw [discover, there]
    obtain ⟨modules, opened, all⟩ := @exists_openAll files directory (files.children directory)
      fun name member => ⟨⟨name, join directory name⟩, openAt_eq_ok.2
        ⟨(isDirectory_join (names _ member)).2 member, rfl, name?_join (names _ member)⟩⟩
    exact ⟨modules, opened, all _ _ listed isIn.opened⟩
  · rintro ⟨modules, found, member⟩
    unfold discover at found
    split at found
    · cases found
      cases member
    · cases found
    · exact isIn_of_openAll names found module member

end ModuleDirectory

end Clickstream
