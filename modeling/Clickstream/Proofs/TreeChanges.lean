import Clickstream.Proofs.ItemFiles

/-! # Trees stay trees

Whatever directories are made and whatever files are written and deleted, a tree stays a tree: a new
path is written in the one way, below directories that are there by then, and no directory goes.
-/

namespace Clickstream

open DiskPath

namespace FileTree

variable {tree tree' tree'' : FileTree} {directory path : String} {parts : List String}
  {content : Content}

theorem get?_of_makeDirectory {key : String} (made : tree.makeDirectory parts = some tree')
    (found : tree'.nodes.get? key ≠ none) : tree.nodes.get? key ≠ none ∨ key = ofStack parts := by
  rw [makeDirectory] at made
  split at made
  · cases made; exact .inl found
  · cases made
  · cases made
    rw [Table.get?_insert] at found
    split at found
    · next same => exact .inr same
    · exact .inl found

theorem get?_of_makeDirectories {key : String} (made : tree.makeDirectories path = some tree')
    (found : tree'.nodes.get? key ≠ none) : tree.nodes.get? key ≠ none ∨
      ∃ upper ∈ stack path :: above (stack path), upper ≠ [] ∧ key = ofStack upper := by
  revert found
  refine makeDirectories_induction Or.inl (fun upper onPath nonempty _ _ made ih => ?_) made
  intro found
  rcases get?_of_makeDirectory made found with there | same
  · exact ih there
  · exact .inr ⟨upper, onPath, nonempty, same⟩

theorem mem_upper_of_cons {part : String} {all : List String}
    (h : part :: parts ∈ all :: above all) : parts ∈ all :: above all := by
  induction all with
  | nil => simp [above] at h
  | cons first rest ih =>
    rcases List.mem_cons.1 h with same | member
    · cases same
      exact List.mem_cons_of_mem _ List.mem_cons_self
    · exact List.mem_cons_of_mem _ (ih member)

theorem IsTree.makeDirectories (isTree : tree.IsTree)
    (made : tree.makeDirectories path = some tree') : tree'.IsTree := by
  constructor
  · intro key found
    rcases get?_of_makeDirectories made found with there | ⟨upper, member, nonempty, same⟩
    · exact isTree.isName key there
    · refine ⟨upper, nonempty, fun part inUpper => ?_, same⟩
      rcases List.mem_cons.1 member with rfl | above
      · exact isName_stack part inUpper
      · exact isName_stack part ((suffix_of_mem_above above).subset inUpper)
  · intro part parts nonempty isNames found
    obtain ⟨here, later⟩ := List.forall_mem_cons.1 isNames
    have isParts : ∀ part ∈ parts, IsPart part := fun part member => (later part member).isPart
    rw [at?_makeDirectories made (List.cons_ne_nil _ _)
      (List.forall_mem_cons.2 ⟨here.isPart, isParts⟩)] at found
    rw [at?_makeDirectories made nonempty isParts]
    split at found
    · next member => rw [if_pos (mem_upper_of_cons member)]
    · split
      · rfl
      · exact isTree.inDirectory part parts nonempty isNames found

theorem IsTree.write (isTree : tree.IsTree) (written : tree.write path content = some tree') :
    tree'.IsTree := by
  obtain ⟨nonempty, notDirectory, -⟩ := at?_write written (@isPart_stack path)
  rw [FileTree.write] at written
  split at written
  · cases written
  · next fine =>
    simp only [not_or] at fine
    have above : (stack path).tail ≠ [] → tree.at? (stack path).tail = some .directory := by
      intro below
      simpa [FileTree.isDirectory, node?_eq, stack_ofStack isName_tail_stack, below] using fine.2.1
    cases written
    constructor
    · intro key found
      rw [Table.get?_insert] at found
      split at found
      · next same => exact ⟨_, nonempty, isName_stack, same⟩
      · exact isTree.isName key found
    · intro part parts below isNames found
      have isParts : ∀ other ∈ part :: parts, IsPart other :=
        fun other member => (isNames other member).isPart
      have upper : ∀ other ∈ parts, IsPart other := (List.forall_mem_cons.1 isParts).2
      simp only [at?, Table.get?_insert, ofStack_eq_iff nonempty isPart_stack isParts,
        ofStack_eq_iff nonempty isPart_stack upper] at found ⊢
      have inDirectory : tree.at? parts = some .directory := by
        split at found
        · next same =>
          rw [← same] at above
          exact above below
        · exact isTree.inDirectory part parts below isNames found
      rw [if_neg]
      · exact inDirectory
      · rintro rfl
        exact notDirectory inDirectory

theorem IsTree.writeAll (isTree : tree.IsTree)
    (written : tree.writeAll path content = some tree') : tree'.IsTree := by
  rw [FileTree.writeAll, Option.bind_eq_bind, Option.bind_eq_some_iff] at written
  obtain ⟨between, made, written⟩ := written
  exact (isTree.makeDirectories made).write written

theorem IsTree.removeFile (isTree : tree.IsTree) (removed : tree.removeFile path = some tree') :
    tree'.IsTree := by
  obtain ⟨⟨content, isFile⟩, -⟩ := at?_removeFile removed (@isPart_stack path)
  constructor
  · intro key found
    rw [FileTree.removeFile] at removed
    split at removed
    · cases removed
      rw [Table.get?_erase] at found
      split at found
      · contradiction
      · exact isTree.isName key found
    · cases removed
  · intro part parts below isNames found
    have isParts : ∀ other ∈ part :: parts, IsPart other :=
      fun other member => (isNames other member).isPart
    rw [(at?_removeFile removed isParts).2] at found
    split at found
    · contradiction
    · have inDirectory := isTree.inDirectory part parts below isNames found
      rw [(at?_removeFile removed (List.forall_mem_cons.1 isParts).2).2, if_neg, inDirectory]
      rintro rfl
      rw [inDirectory] at isFile
      cases isFile

/-- The names in the directories of a tree are names. -/
theorem IsTree.isName_of_children {name : String} {node : Node} (isTree : tree.IsTree)
    (listed : (name, node) ∈ tree.children directory) : IsName name := by
  obtain ⟨isPart, found⟩ := mem_children.1 listed
  have there : tree.at? (name :: stack directory) ≠ none := by simp [found]
  exact isTree.isName_of_at? (List.cons_ne_nil _ _) (isPart_below isPart) there name
    List.mem_cons_self

end FileTree

end Clickstream
