import Clickstream.Proofs.Trees
import Clickstream.Store

/-! # Where the files of a store are

The name of a file is made of characters that suit one, so its path is that of the directory of the
store, a group and the name, unless the group is no name of its own. A tree in which the directory
of a store is in order stays so whatever file is written or deleted there, and two parts below that
directory nothing but that file changes.
-/

namespace Clickstream

open DiskPath

/-! ## Names of files -/

namespace DiskPath

instance {part : String} : Decidable (IsName part) :=
  decidable_of_iff ((part ≠ "" ∧ '/' ∉ part.toList) ∧ part ≠ "." ∧ part ≠ "..")
    ⟨fun ⟨isPart, here, above⟩ => ⟨isPart, here, above⟩, fun h => ⟨h.isPart, h.ne_here, h.ne_above⟩⟩

theorem length_push_le {parts : List String} {part : String} :
    (push parts part).length ≤ parts.length + 1 := by
  rw [push]
  split
  · exact Nat.le_succ _
  · split
    · rw [List.length_tail]
      omega
    · exact Nat.le_refl _

/-- A part that does not name anything leads elsewhere. -/
theorem push_eq_cons {parts : List String} {part group : String} (slashless : '/' ∉ part.toList) :
    push parts part = group :: parts ↔ IsName part ∧ group = part := by
  constructor
  · intro pushed
    have longer := congrArg List.length pushed
    rw [push] at pushed longer
    split at pushed
    · next skipped => rw [if_pos skipped] at longer; simp at longer
    · next shown =>
      rw [if_neg shown] at longer
      rw [not_or] at shown
      split at pushed
      · next up => rw [if_pos up, List.length_tail, List.length_cons] at longer; omega
      · next below => exact ⟨⟨⟨shown.1, slashless⟩, shown.2, below⟩, (List.cons.inj pushed).1.symm⟩
  · rintro ⟨isName, rfl⟩
    exact push_name isName

end DiskPath

namespace Store

variable {id name stem group directory : String}

theorem slashless_fileSafe : '/' ∉ (fileSafe id).toList := by
  rw [fileSafe, String.toList_ofList, List.mem_map]
  rintro ⟨c, -, isSlash⟩
  split at isSlash
  · next safe => rw [isSlash] at safe; revert safe; decide
  · revert isSlash; decide

theorem isName_mappingsName : IsName mappingsName := by decide

theorem fileSafe_eq_empty : fileSafe id = "" ↔ id = "" := by
  rw [← String.toList_inj, fileSafe, String.toList_ofList, ← String.toList_inj]
  exact List.map_eq_nil_iff

theorem stem?_eq_some : stem? name = some stem ↔ name = stem ++ ".json" ∧ stem ≠ "" := by
  rw [stem?]
  constructor
  · intro found
    split at found
    · next ends =>
      obtain ⟨start, whole⟩ := List.isSuffixOf_iff_suffix.1 ends.2
      have taken : name.toList.take (name.toList.length - 5) = start := by
        rw [← whole, List.length_append]
        exact List.take_left
      rw [taken] at found
      cases found
      constructor
      · apply String.toList_injective
        rw [String.toList_append, String.toList_ofList, whole]
      · intro empty
        have none : start = [] := String.ofList_injective empty
        rw [← whole, none] at ends
        exact absurd ends.1 (by decide)
    · cases found
  · rintro ⟨rfl, nonempty⟩
    have chars : (stem ++ ".json").toList = stem.toList ++ ".json".toList := String.toList_append
    have some : 0 < stem.toList.length := List.length_pos_iff.2 fun none =>
      nonempty (String.toList_injective none)
    have longer : (stem ++ ".json").toList.length = stem.toList.length + 5 := by
      rw [chars, List.length_append]
      rfl
    have ends : ".json".toList.isSuffixOf (stem ++ ".json").toList = true := by
      rw [chars, List.isSuffixOf_iff_suffix]
      exact List.suffix_append _ _
    rw [if_pos ⟨by omega, ends⟩, longer, chars, Nat.add_sub_cancel, List.take_left,
      String.ofList_toList]

theorem isName_json (slashless : '/' ∉ id.toList) : IsName (id ++ ".json") := by
  have long : 5 ≤ (id ++ ".json").length := by
    rw [String.length_append]
    exact Nat.le_add_left _ _
  have other {text : String} (short : text.length < 5) : id ++ ".json" ≠ text := by
    intro same
    rw [same] at long
    omega
  refine ⟨⟨other (by decide), ?_⟩, other (by decide), other (by decide)⟩
  rw [String.toList_append, List.mem_append, not_or]
  exact ⟨slashless, by decide⟩

theorem stack_fileName (slashless : '/' ∉ group.toList) :
    stack (fileName directory group id) =
      (fileSafe id ++ ".json") :: push (stack directory) group := by
  have spelled : fileName directory group id =
      directory ++ "/" ++ group ++ "/" ++ (fileSafe id ++ ".json") := String.append_assoc
  rw [spelled, stack_append_name (isName_json slashless_fileSafe), stack_append_part slashless]

/-- The place of a file two parts below the directory of its store. -/
theorem stack_fileName_eq {group' : String} (slashless : '/' ∉ group.toList) :
    stack (fileName directory group id) = name :: group' :: stack directory ↔
      IsName group ∧ group' = group ∧ name = fileSafe id ++ ".json" := by
  rw [stack_fileName slashless, List.cons.injEq, push_eq_cons slashless]
  constructor
  · rintro ⟨rfl, isName, rfl⟩
    exact ⟨isName, rfl, rfl⟩
  · rintro ⟨isName, rfl, rfl⟩
    exact ⟨rfl, isName, rfl⟩

end Store

/-! ## A directory in order -/

namespace FileTree

variable {tree tree' : FileTree} {path directory group name : String}

/-- A tree in which every path is written in the one way and leads through directories. -/
structure IsTree (tree : FileTree) : Prop where
  isName : ∀ path, tree.nodes.get? path ≠ none →
    ∃ parts, parts ≠ [] ∧ (∀ part ∈ parts, IsName part) ∧ path = ofStack parts
  inDirectory : ∀ part parts, parts ≠ [] → (∀ other ∈ part :: parts, IsName other) →
    tree.at? (part :: parts) ≠ none → tree.at? parts = some .directory

/-- What a directory holds down to two parts below it is in order, if it is there at all. -/
structure Grouped (tree : FileTree) (directory : String) : Prop where
  isName : ∀ group, IsPart group → tree.at? (group :: stack directory) ≠ none → IsName group
  inGroup : ∀ group name, IsPart group → IsPart name →
    tree.at? (name :: group :: stack directory) ≠ none →
      tree.at? (group :: stack directory) = some .directory

/-- A directory is there, and what it holds is in order. -/
structure InOrder (tree : FileTree) (directory : String) : Prop extends Grouped tree directory where
  fits : DiskPath.fits (stack directory) = true
  made : ∀ upper ∈ stack directory :: above (stack directory), upper ≠ [] →
    tree.at? upper = some .directory

theorem isPart_below (isGroup : IsPart group) : ∀ part ∈ group :: stack directory, IsPart part :=
  List.forall_mem_cons.2 ⟨isGroup, fun part member => (isName_stack part member).isPart⟩

theorem isPart_two_below (isGroup : IsPart group) (isFile : IsPart name) :
    ∀ part ∈ name :: group :: stack directory, IsPart part :=
  List.forall_mem_cons.2 ⟨isFile, isPart_below isGroup⟩

theorem isPart_upper {upper : List String}
    (h : upper ∈ stack directory :: above (stack directory)) : ∀ part ∈ upper, IsPart part :=
  isPart_of_mem_above isName_stack h

/-- Nothing at or above a directory is longer than it. -/
theorem length_le_of_mem_upper {parts upper : List String} (h : upper ∈ parts :: above parts) :
    upper.length ≤ parts.length := by
  rcases List.mem_cons.1 h with rfl | h
  · exact Nat.le_refl _
  · exact Nat.le_of_lt (length_lt_of_mem_above h)

theorem below_not_mem_upper :
    group :: stack directory ∉ stack directory :: above (stack directory) := by
  intro member
  have short := length_le_of_mem_upper member
  rw [List.length_cons] at short
  omega

theorem two_below_not_mem_upper :
    name :: group :: stack directory ∉ stack directory :: above (stack directory) := by
  intro member
  have short := length_le_of_mem_upper member
  rw [List.length_cons, List.length_cons] at short
  omega

/-- Making a directory and all above it puts it in order. -/
theorem Grouped.inOrder (grouped : tree.Grouped directory)
    (made : tree.makeDirectories directory = some tree') : tree'.InOrder directory := by
  have same {group : String} (isGroup : IsPart group) :
      tree'.at? (group :: stack directory) = tree.at? (group :: stack directory) := by
    rw [at?_makeDirectories made (List.cons_ne_nil _ _) (isPart_below isGroup),
      if_neg below_not_mem_upper]
  refine ⟨⟨?_, ?_⟩, fits_of_makeDirectories made, ?_⟩
  · intro group isGroup found
    rw [same isGroup] at found
    exact grouped.isName group isGroup found
  · intro group name isGroup isFile found
    rw [at?_makeDirectories made (List.cons_ne_nil _ _) (isPart_two_below isGroup isFile),
      if_neg two_below_not_mem_upper] at found
    rw [same isGroup]
    exact grouped.inGroup group name isGroup isFile found
  · intro upper member nonempty
    rw [at?_makeDirectories made nonempty (isPart_upper member), if_pos member]

theorem IsTree.isName_of_at? (isTree : tree.IsTree) {parts : List String} (nonempty : parts ≠ [])
    (isParts : ∀ part ∈ parts, IsPart part) (found : tree.at? parts ≠ none) :
    ∀ part ∈ parts, IsName part := by
  obtain ⟨others, -, isNames, same⟩ := isTree.isName _ found
  rw [ofStack_inj nonempty isParts (fun part member => (isNames part member).isPart) same]
  exact isNames

/-- Whether a tree is in order can be told from its paths one by one. -/
theorem isTree_iff : tree.IsTree ↔ ∀ entry ∈ tree.nodes.entries,
    (stack entry.1 ≠ [] ∧ normal entry.1 = entry.1) ∧
      ((stack entry.1).tail = [] ∨ tree.at? (stack entry.1).tail = some .directory) := by
  constructor
  · rintro isTree ⟨path, node⟩ member
    have found : tree.nodes.get? path ≠ none := by simp [Table.mem_entries.1 member]
    obtain ⟨parts, nonempty, isNames, rfl⟩ := isTree.isName path found
    rw [normal, stack_ofStack isNames]
    refine ⟨⟨nonempty, rfl⟩, ?_⟩
    cases parts with
    | nil => exact .inl rfl
    | cons part rest =>
      by_cases top : rest = []
      · exact .inl top
      · exact .inr (isTree.inDirectory part rest top isNames found)
  · intro all
    constructor
    · intro path found
      obtain ⟨node, isNode⟩ := Option.ne_none_iff_exists'.1 found
      obtain ⟨⟨nonempty, same⟩, -⟩ := all (path, node) (Table.mem_entries.2 isNode)
      exact ⟨stack path, nonempty, isName_stack, same.symm⟩
    · intro part parts nonempty isNames found
      obtain ⟨node, isNode⟩ := Option.ne_none_iff_exists'.1 found
      have inTree := (all _ (Table.mem_entries.2 isNode)).2
      rw [stack_ofStack isNames] at inTree
      exact inTree.resolve_left nonempty

instance : Decidable tree.IsTree := decidable_of_iff' _ isTree_iff

theorem IsTree.grouped (isTree : tree.IsTree) : tree.Grouped directory where
  isName group isGroup found :=
    isTree.isName_of_at? (List.cons_ne_nil _ _) (isPart_below isGroup) found group
      List.mem_cons_self
  inGroup _ name isGroup isFile found :=
    isTree.inDirectory name _ (List.cons_ne_nil _ _)
      (isTree.isName_of_at? (List.cons_ne_nil _ _) (isPart_two_below isGroup isFile) found) found

/-- What an empty directory holds is in order. -/
theorem grouped_of_below_eq_nil (empty : tree.below directory = []) : tree.Grouped directory := by
  have nothing {path : String} (nonempty : path ≠ "") :
      tree.nodes.get? (beneath directory ++ path) = none := by
    apply Option.eq_none_iff_forall_ne_some.2
    intro node found
    have listed := mem_below.2 ⟨nonempty, found⟩
    rw [empty] at listed
    cases listed
  constructor
  · intro group isGroup found
    rw [at?, ← beneath_append] at found
    exact absurd (nothing isGroup.1) found
  · intro group name isGroup isFile found
    rw [at?, ofStack_cons (List.cons_ne_nil _ _), ← beneath_append, String.append_assoc,
      String.append_assoc] at found
    refine absurd (nothing ?_) found
    intro none
    exact isGroup.1 (String.append_eq_empty_iff.1 none).1

/-! ## Changing one file -/

section

variable {content : Content}

theorem InOrder.of_writeAll (order : tree.InOrder directory)
    (near : (stack path).length ≤ (stack directory).length + 2)
    (written : tree.writeAll path content = some tree') : tree'.InOrder directory := by
  obtain ⟨-, notDirectory⟩ := not_directory_of_writeAll written
  -- What was a directory is none of the new file, and stays one.
  have kept {parts : List String} (nonempty : parts ≠ []) (isParts : ∀ part ∈ parts, IsPart part)
      (found : tree.at? parts = some .directory) : tree'.at? parts = some .directory := by
    have other : parts ≠ stack path := fun same => notDirectory (same ▸ found)
    rw [at?_writeAll written nonempty isParts, if_neg other, found]
    split <;> rfl
  refine ⟨⟨?_, ?_⟩, order.fits, fun upper member nonempty =>
    kept nonempty (isPart_upper member) (order.made upper member nonempty)⟩
  · intro group isGroup found
    rw [at?_writeAll written (List.cons_ne_nil _ _) (isPart_below isGroup)] at found
    split at found
    · next isPath => exact isName_stack group (isPath ▸ List.mem_cons_self)
    · split at found
      · next isUpper =>
        exact isName_stack group ((suffix_of_mem_above isUpper).subset List.mem_cons_self)
      · exact order.isName group isGroup found
  · intro group name isGroup isFile found
    rw [at?_writeAll written (List.cons_ne_nil _ _) (isPart_two_below isGroup isFile)] at found
    split at found
    · next isPath =>
      have other : group :: stack directory ≠ stack path := by
        rw [← isPath]
        exact fun same => absurd (congrArg List.length same) (by simp)
      have isUpper : group :: stack directory ∈ above (stack path) := by
        rw [← isPath]
        exact List.mem_cons_self
      rw [at?_writeAll written (List.cons_ne_nil _ _) (isPart_below isGroup), if_neg other,
        if_pos isUpper]
    · split at found
      · next isUpper =>
        have short := length_lt_of_mem_above isUpper
        rw [List.length_cons, List.length_cons] at short
        omega
      · exact kept (List.cons_ne_nil _ _) (isPart_below isGroup)
          (order.inGroup group name isGroup isFile found)

theorem at?_writeAll_two_below (near : (stack path).length ≤ (stack directory).length + 2)
    (written : tree.writeAll path content = some tree') (isGroup : IsPart group)
    (isFile : IsPart name) : tree'.at? (name :: group :: stack directory) =
      if name :: group :: stack directory = stack path then some (.file content)
      else tree.at? (name :: group :: stack directory) := by
  have notUpper : name :: group :: stack directory ∉ above (stack path) := by
    intro isUpper
    have short := length_lt_of_mem_above isUpper
    rw [List.length_cons, List.length_cons] at short
    omega
  rw [at?_writeAll written (List.cons_ne_nil _ _) (isPart_two_below isGroup isFile),
    if_neg notUpper]

theorem InOrder.of_removeFile (order : tree.InOrder directory)
    (removed : tree.removeFile path = some tree') : tree'.InOrder directory := by
  -- What was a directory is not the deleted file, and stays one.
  have kept {parts : List String} (isParts : ∀ part ∈ parts, IsPart part)
      (found : tree.at? parts = some .directory) : tree'.at? parts = some .directory := by
    obtain ⟨⟨content, isFile⟩, after⟩ := at?_removeFile removed isParts
    have other : parts ≠ stack path := by
      rintro rfl
      rw [found] at isFile
      cases isFile
    rw [after, if_neg other, found]
  have before {parts : List String} (isParts : ∀ part ∈ parts, IsPart part)
      (found : tree'.at? parts ≠ none) : tree.at? parts ≠ none := by
    obtain ⟨-, after⟩ := at?_removeFile removed isParts
    rw [after] at found
    split at found
    · contradiction
    · exact found
  refine ⟨⟨?_, ?_⟩, order.fits, fun upper member nonempty =>
    kept (isPart_upper member) (order.made upper member nonempty)⟩
  · intro group isGroup found
    exact order.isName group isGroup (before (isPart_below isGroup) found)
  · intro group name isGroup isFile found
    exact kept (isPart_below isGroup)
      (order.inGroup group name isGroup isFile (before (isPart_two_below isGroup isFile) found))

end

end FileTree

end Clickstream
