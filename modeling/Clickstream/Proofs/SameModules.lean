import Clickstream.Proofs.Contributions
import Clickstream.Proofs.Discovery
import Clickstream.Proofs.SameFiles

/-! # Modules that stay as they are

What a directory ships as modules depends on nothing but what is in it, and a directory that is not
there has none, like an empty one. As long as the modules stay the same, none of them loses anything
by being loaded again, and a name without a module has nothing to lose.
-/

namespace Clickstream

open DiskPath

/-! ## Modules in a directory that stays the same -/

namespace DiskPath

/-- Empty parts do not count. -/
theorem foldl_push_filter {parts start : List String} :
    (parts.filter (· ≠ "")).foldl push start = parts.foldl push start := by
  induction parts generalizing start with
  | nil => rfl
  | cons part rest ih =>
    rw [List.filter_cons]
    split
    · exact ih
    · next empty =>
      obtain rfl : part = "" := by simpa using empty
      exact ih

end DiskPath

namespace ModuleDirectory

variable {files files' : FileTree} {directory : String} {module : ModuleDirectory}

theorem stack_spelled {path : String} : stack (spelled path) = stack path := by
  have same : spelled path = ofStack ((segments path).filter (· ≠ "")).reverse := by
    rw [spelled, ofStack, List.reverse_reverse]
  rw [stack_eq_foldl path, ← segments, ← foldl_push_filter, same]
  by_cases none : (segments path).filter (· ≠ "") = []
  · rw [none]
    rfl
  · have isParts : ∀ part ∈ ((segments path).filter (· ≠ "")).reverse, IsPart part := by
      intro part member
      obtain ⟨isSegment, nonempty⟩ := List.mem_filter.1 (List.mem_reverse.1 member)
      exact ⟨of_decide_eq_true nonempty, not_mem_of_mem_split List.not_mem_nil isSegment⟩
    rw [stack_eq_foldl, split_ofStack (by simpa using none) isParts, List.reverse_reverse]
    rfl

theorem isName_text {ns : Namespace} : IsName ns.text := by
  cases ns <;> decide

/-- What a module ships is told by the directory that it is in. -/
theorem source_congr (same : FileTree.SameIn directory files files')
    (inside : stack directory <:+ stack module.root) :
    module.source files' = module.source files := by
  have below (ns : Namespace) : files'.below (join (spelled module.root) ns.text) =
      files.below (join (spelled module.root) ns.text) := by
    apply same.below
    rw [stack_join isName_text, stack_spelled]
    exact inside.trans (List.suffix_cons _ _)
  have lists : list files' module = list files module := by
    funext ns
    simp only [list, documentFiles, below ns]
  rw [source, source, lists]

theorem openAt_congr {root : String} (same : FileTree.SameIn directory files files')
    (inside : stack directory <:+ stack root) : openAt files' root = openAt files root := by
  rw [openAt, openAt, FileTree.isDirectory, FileTree.isDirectory, same.node root inside]

/-- A directory holds the same modules in two trees, with the same documents. -/
structure SameModules (directory : String) (files files' : FileTree) : Prop where
  isIn : ∀ module : ModuleDirectory, module.IsIn files' directory ↔ module.IsIn files directory
  source : ∀ module : ModuleDirectory, module.IsIn files directory →
    module.source files' = module.source files

theorem SameModules.refl : SameModules directory files files := ⟨fun _ => .rfl, fun _ _ => rfl⟩

theorem SameModules.trans {files'' : FileTree} (h : SameModules directory files files')
    (h' : SameModules directory files' files'') : SameModules directory files files'' where
  isIn module := (h'.isIn module).trans (h.isIn module)
  source module isIn := (h'.source module ((h.isIn module).2 isIn)).trans (h.source module isIn)

/-- It is enough that the directories of the modules stay the same. -/
theorem sameModules_of_join (same : ∀ id : ModuleId, IsName id →
    FileTree.SameIn (join directory id) files files') : SameModules directory files files' where
  isIn module := by
    refine ⟨fun isIn => ⟨isIn.isName, ?_⟩, fun isIn => ⟨isIn.isName, ?_⟩⟩
    · rw [← openAt_congr (same _ isIn.isName) List.suffix_rfl, isIn.opened]
    · rw [openAt_congr (same _ isIn.isName) List.suffix_rfl, isIn.opened]
  source _ isIn := source_congr (same _ isIn.isName) (isIn.root ▸ List.suffix_rfl)

theorem sameModules_of_sameIn (same : FileTree.SameIn directory files files') :
    SameModules directory files files' := by
  refine sameModules_of_join fun id isName => ?_
  have inside : stack directory <:+ stack (join directory id) := by
    rw [stack_join isName]
    exact List.suffix_cons _ _
  exact ⟨fun path below => same.node path (inside.trans below),
    fun path below => same.below path (inside.trans below)⟩

/-- A directory that is made has the modules that it had. -/
theorem sameModules_of_makeDirectories (made : files.makeDirectories directory = some files') :
    SameModules directory files files' := by
  refine sameModules_of_join fun id isName => .of_makeDirectories (fun inside => ?_) made
  rw [stack_join isName] at inside
  exact absurd inside.length_le (by simp)

end ModuleDirectory

/-! ## What was loaded from a directory -/

namespace Registry

variable {r : Registry} {files : FileTree} {directory : String} {module : ModuleDirectory}
  {kind : DefinitionKind} {name : String}

/-- Whatever a module owns, there is a module of that id in a directory which declares it. -/
def DeclaredIn (r : Registry) (files : FileTree) (directory : String) : Prop :=
  ∀ owner kind name, r.Owns owner kind name → ∃ module : ModuleDirectory,
    module.IsIn files directory ∧ module.id = owner ∧
      name ∈ ((module.source files).declared kind).map Declaration.id

namespace DeclaredIn

/-- A module that is there declares what is put in for it. -/
theorem incoming_source : r.definitions.incoming (module.source files) kind =
    (module.source files).declared kind := if_pos rfl

theorem not_mem_removed_load (h : r.DeclaredIn files directory)
    (isIn : module.IsIn files directory) :
    name ∉ (r.load (module.source files)).2.1.removed.ids kind := by
  refine Registry.not_mem_removed_load fun owned => ?_
  obtain ⟨other, isIn', same, declared⟩ := h _ _ _ owned
  obtain rfl : other = module := isIn'.unique isIn same
  rw [incoming_source]
  exact declared

theorem load (h : r.DeclaredIn files directory) (isIn : module.IsIn files directory) :
    (r.load (module.source files)).1.DeclaredIn files directory := by
  rintro owner kind name ⟨x, found, isOwner⟩
  rw [declaration?_load] at found
  rcases Option.or_eq_some_iff.1 found with put | ⟨-, kept⟩
  · obtain ⟨member, rfl⟩ := Declaration.of_last? put
    rw [Definitions.owner_of_mem_incoming member] at isOwner
    cases isOwner
    rw [incoming_source] at member
    exact ⟨module, isIn, rfl, List.mem_map_of_mem member⟩
  · exact h owner kind name ⟨x, (filter_owner_eq_some.1 kept).1, isOwner⟩

/-- Without a module of an id nothing is owned under it. -/
theorem not_owns (h : r.DeclaredIn files directory) {id : ModuleId}
    (absent : ∀ module : ModuleDirectory, module.IsIn files directory → module.id ≠ id) :
    ¬ r.Owns id kind name := by
  intro owned
  obtain ⟨module, isIn, same, -⟩ := h id kind name owned
  exact absent module isIn same

theorem unload (h : r.DeclaredIn files directory) {id : ModuleId} :
    (r.unload id).1.DeclaredIn files directory := by
  rintro owner kind name ⟨x, found, isOwner⟩
  rw [declaration?_unload] at found
  exact h owner kind name ⟨x, (filter_owner_eq_some.1 found).1, isOwner⟩

end DeclaredIn

end Registry

end Clickstream
