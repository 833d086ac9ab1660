import Clickstream.Proofs.TreeChanges

/-! # Files that stay as they are

Making directories, writing a file and deleting one leave a directory alone that the path does not
lead into.
-/

namespace Clickstream

open DiskPath

/-! ## Listings -/

namespace Fields

variable {V W : Type} {fields : Fields V} {name : String} {list : String × V → Option W}

/-- A listing that leaves out a name does not show what is put there. -/
theorem filterMap_insert_skipped {value : V} (skipped : ∀ value, list (name, value) = none) :
    (fields.insert name value).filterMap list = fields.filterMap list := by
  induction fields with
  | nil => simp [insert, skipped]
  | cons head rest ih =>
    obtain ⟨key, old⟩ := head
    rw [insert]
    split
    · next same => subst same; simp [skipped]
    · split
      · simp [skipped]
      · simp [List.filterMap_cons, ih]

theorem filterMap_erase_skipped (skipped : ∀ value, list (name, value) = none) :
    (fields.erase name).filterMap list = fields.filterMap list := by
  induction fields with
  | nil => rfl
  | cons head rest ih =>
    obtain ⟨key, value⟩ := head
    rw [erase] at ih ⊢
    rw [List.filter_cons]
    split
    · rw [List.filterMap_cons, List.filterMap_cons, ih]
    · next same =>
      obtain rfl : key = name := by simpa using same
      rw [List.filterMap_cons, skipped, ih]

end Fields

namespace DiskPath

variable {directory path : String} {parts : List String}

/-- A path that is written below a directory starts with the parts of the directory. -/
theorem suffix_of_beneath (nonempty : parts ≠ []) (isParts : ∀ part ∈ parts, IsPart part)
    (same : beneath directory ++ path = ofStack parts) : stack directory <:+ parts := by
  by_cases root : stack directory = []
  · rw [root]
    exact List.nil_suffix
  · have chars : (ofStack parts).toList =
        (ofStack (stack directory)).toList ++ '/' :: path.toList := by
      rw [← same, beneath]
      split
      · contradiction
      · simp
    have split := split_ofStack nonempty isParts
    rw [chars, split_append, split_ofStack root isPart_stack, List.cons_append] at split
    rw [← List.reverse_prefix]
    exact ⟨_, (List.cons.inj split).2⟩

end DiskPath

namespace FileTree

variable {tree tree' tree'' : FileTree} {directory path : String} {parts : List String}
  {content : Content}

/-! ## Directories that stay the same -/

/-- A directory and all that is in it are the same in two trees. -/
structure SameIn (directory : String) (tree tree' : FileTree) : Prop where
  node : ∀ path, stack directory <:+ stack path → tree'.node? path = tree.node? path
  below : ∀ path, stack directory <:+ stack path → tree'.below path = tree.below path

theorem SameIn.refl : SameIn directory tree tree := ⟨fun _ _ => rfl, fun _ _ => rfl⟩

theorem SameIn.trans (h : SameIn directory tree tree') (h' : SameIn directory tree' tree'') :
    SameIn directory tree tree'' where
  node path inside := (h'.node path inside).trans (h.node path inside)
  below path inside := (h'.below path inside).trans (h.below path inside)

section

variable {nodes : Table Node} {node : Node} (nonempty : parts ≠ [])
  (isParts : ∀ part ∈ parts, IsPart part) (apart : ¬ stack directory <:+ parts)

include nonempty isParts apart

/-- What is not in a directory is not listed below anything in it. -/
theorem not_listed (inside : stack directory <:+ stack path) :
    ¬ ((ofStack parts).startsWith (beneath path) = true ∧ ofStack parts ≠ beneath path) := by
  rintro ⟨starts, -⟩
  obtain ⟨rest, same⟩ := String.startsWith_string_iff.1 starts
  have written : beneath path ++ String.ofList rest = ofStack parts := by
    apply String.toList_injective
    rw [String.toList_append, String.toList_ofList, same]
  exact apart (inside.trans (suffix_of_beneath nonempty isParts written))

theorem ofStack_ne (inside : stack directory <:+ stack path) :
    ofStack (stack path) ≠ ofStack parts := by
  intro same
  rw [ofStack_eq_iff nonempty isParts isPart_stack] at same
  exact apart (same ▸ inside)

theorem SameIn.of_insert :
    SameIn directory { nodes } { nodes := nodes.insert (ofStack parts) node } where
  node path inside := by
    rw [node?_eq, node?_eq, at?, at?, Table.get?_insert,
      if_neg (ofStack_ne nonempty isParts apart inside)]
  below path inside := Fields.filterMap_insert_skipped fun _ =>
    if_neg (not_listed nonempty isParts apart inside)

theorem SameIn.of_erase : SameIn directory { nodes } { nodes := nodes.erase (ofStack parts) } where
  node path inside := by
    rw [node?_eq, node?_eq, at?, at?, Table.get?_erase,
      if_neg (ofStack_ne nonempty isParts apart inside)]
  below path inside := Fields.filterMap_erase_skipped fun _ =>
    if_neg (not_listed nonempty isParts apart inside)

theorem SameIn.of_makeDirectory (made : tree.makeDirectory parts = some tree') :
    SameIn directory tree tree' := by
  rw [makeDirectory] at made
  split at made
  · cases made; exact .refl
  · cases made
  · cases made; exact .of_insert nonempty isParts apart

end

variable (apart : ¬ stack directory <:+ stack path)

include apart

theorem SameIn.of_makeDirectories (made : tree.makeDirectories path = some tree') :
    SameIn directory tree tree' := by
  refine makeDirectories_induction .refl (fun upper onPath nonempty _ _ made same => ?_) made
  refine same.trans (.of_makeDirectory nonempty (isPart_upper onPath) (fun inside => ?_) made)
  rcases List.mem_cons.1 onPath with rfl | isAbove
  · exact apart inside
  · exact apart (inside.trans (suffix_of_mem_above isAbove))

theorem SameIn.of_writeAll (written : tree.writeAll path content = some tree') :
    SameIn directory tree tree' := by
  rw [writeAll, Option.bind_eq_bind, Option.bind_eq_some_iff] at written
  obtain ⟨between, made, written⟩ := written
  obtain ⟨nonempty, -⟩ := at?_write written (@isPart_stack path)
  have above : ¬ stack directory <:+ stack (ofStack (stack path).tail) := by
    rw [stack_ofStack isName_tail_stack]
    exact fun inside => apart (inside.trans (List.tail_suffix _))
  refine .trans (.of_makeDirectories above made) ?_
  rw [write] at written
  split at written
  · cases written
  · cases written
    exact .of_insert nonempty isPart_stack apart

theorem SameIn.of_removeFile (removed : tree.removeFile path = some tree') :
    SameIn directory tree tree' := by
  rw [removeFile] at removed
  split at removed
  · next content isFile =>
    cases removed
    refine .of_erase ?_ isPart_stack apart
    intro root
    rw [file?, node?_eq, if_pos root] at isFile
    cases isFile
  · cases removed

end FileTree

end Clickstream
