import Clickstream.Proofs.Paths
import Clickstream.Proofs.Tables

/-! # What a file tree holds

The nodes of a file tree by the parts of their paths, last part first. A listing of a directory
names exactly the nodes one part below it. Making directories, writing a file and deleting one change
the nodes at the paths that they are about, and no others.
-/

namespace Clickstream

open DiskPath

/-! ## Suffixes of a path -/

namespace DiskPath

theorem above_of_ne_nil {parts : List String} (h : parts ≠ []) :
    above parts = parts.tail :: above parts.tail := by
  cases parts with
  | nil => contradiction
  | cons part rest => rfl

theorem length_lt_of_mem_above {parts upper : List String} (h : upper ∈ above parts) :
    upper.length < parts.length := by
  induction parts with
  | nil => cases h
  | cons part rest ih =>
    rcases List.mem_cons.1 h with rfl | h
    · exact Nat.lt_succ_self _
    · exact Nat.lt_succ_of_lt (ih h)

theorem suffix_of_mem_above {parts upper : List String} (h : upper ∈ above parts) :
    upper <:+ parts := by
  induction parts with
  | nil => cases h
  | cons part rest ih =>
    rcases List.mem_cons.1 h with rfl | h
    · exact List.suffix_cons _ _
    · exact (ih h).trans (List.suffix_cons _ _)

theorem isPart_of_mem_above {parts upper : List String} (names : ∀ part ∈ parts, IsName part)
    (h : upper ∈ parts :: above parts) : ∀ part ∈ upper, IsPart part := by
  intro part member
  rcases List.mem_cons.1 h with rfl | h
  · exact (names part member).isPart
  · exact (names part ((suffix_of_mem_above h).subset member)).isPart

theorem isName_stack {path : String} : ∀ part ∈ stack path, IsName part :=
  fun _ => isName_of_mem_stack

theorem isPart_stack {path : String} : ∀ part ∈ stack path, IsPart part :=
  fun _ member => (isName_of_mem_stack member).isPart

theorem isName_tail_stack {path : String} : ∀ part ∈ (stack path).tail, IsName part :=
  fun _ member => isName_of_mem_stack (List.mem_of_mem_tail member)

end DiskPath

namespace FileTree

variable {tree tree' : FileTree} {path directory : String} {parts others : List String}

/-- The node at the path of some parts. -/
def at? (tree : FileTree) (parts : List String) : Option Node := tree.nodes.get? (ofStack parts)

theorem node?_eq : tree.node? path =
    if stack path = [] then some .directory else tree.at? (stack path) := by
  rw [node?, at?, normal]
  by_cases root : stack path = []
  · rw [root]
    rfl
  · have notRoot := ofStack_ne_root root isPart_stack
    rw [if_neg root]
    exact if_neg notRoot

/-! ## Listing a directory -/

theorem beneath_append {name : String} :
    beneath directory ++ name = ofStack (name :: stack directory) := by
  rw [beneath]
  split
  · next root => rw [root]; simp [ofStack]
  · next parts nonempty => rw [ofStack_cons (by simpa using nonempty)]

theorem mem_below {node : Node} : (path, node) ∈ tree.below directory ↔
    path ≠ "" ∧ tree.nodes.get? (beneath directory ++ path) = some node := by
  rw [below, List.mem_filterMap]
  constructor
  · rintro ⟨⟨whole, node'⟩, listed, shown⟩
    dsimp only at shown
    split at shown
    · next starts =>
      obtain ⟨rfl, rfl⟩ := Prod.mk.inj (Option.some.inj shown)
      obtain ⟨rest, same⟩ := String.startsWith_string_iff.1 starts.1
      have spelled : whole = beneath directory ++ String.ofList rest := by
        apply String.toList_injective
        rw [String.toList_append, String.toList_ofList, same]
      rw [← same, List.drop_left, ← spelled]
      refine ⟨?_, Table.mem_entries.1 listed⟩
      intro empty
      apply starts.2
      rw [spelled, empty]
      exact String.append_empty
    · cases shown
  · rintro ⟨nonempty, found⟩
    refine ⟨(beneath directory ++ path, node), Table.mem_entries.2 found, ?_⟩
    have starts : (beneath directory ++ path).startsWith (beneath directory) = true := by
      rw [String.startsWith_string_iff, String.toList_append]
      exact List.prefix_append _ _
    have longer : beneath directory ++ path ≠ beneath directory := by
      intro same
      apply nonempty
      have chars := congrArg String.toList same
      rw [String.toList_append, List.append_right_eq_self] at chars
      exact String.toList_injective chars
    dsimp only
    rw [if_pos ⟨starts, longer⟩, String.toList_append, List.drop_left, String.ofList_toList]

theorem mem_children {name : String} {node : Node} :
    (name, node) ∈ tree.children directory ↔
      IsPart name ∧ tree.at? (name :: stack directory) = some node := by
  rw [at?, ← beneath_append, children, List.mem_filter, mem_below, IsPart]
  simp only [decide_eq_true_iff]
  exact and_right_comm

/-! ## Changing a tree -/

theorem at?_makeDirectory (nonempty : parts ≠ []) (isParts : ∀ part ∈ parts, IsPart part)
    (made : tree.makeDirectory parts = some tree') (isParts' : ∀ part ∈ others, IsPart part) :
    tree'.at? others = if others = parts then some .directory else tree.at? others := by
  rw [makeDirectory] at made
  split at made
  · next found =>
    cases made
    split
    · next same => rw [same]; exact found
    · rfl
  · cases made
  · cases made
    simp only [at?, Table.get?_insert, ofStack_eq_iff nonempty isParts isParts']

/-- What holds of a tree and is kept by each directory that is made on a path holds at the end. -/
@[elab_as_elim]
theorem makeDirectories_induction {motive : FileTree → Prop} (start : motive tree)
    (step : ∀ upper ∈ stack path :: above (stack path), upper ≠ [] → ∀ before after,
      before.makeDirectory upper = some after → motive before → motive after)
    (made : tree.makeDirectories path = some tree') : motive tree' := by
  have each : ∀ (paths : List (List String)) (tree : FileTree),
      (∀ upper ∈ paths, upper ∈ stack path :: above (stack path) ∧ upper ≠ []) →
      paths.foldlM makeDirectory tree = some tree' → motive tree → motive tree' := by
    intro paths
    induction paths with
    | nil => intro tree _ made start; cases made; exact start
    | cons upper rest ih =>
      intro tree uppers made start
      obtain ⟨⟨onPath, nonempty⟩, later⟩ := List.forall_mem_cons.1 uppers
      rw [List.foldlM_cons] at made
      obtain ⟨between, first, made⟩ := Option.bind_eq_some_iff.1 made
      exact ih between later made (step upper onPath nonempty tree between first start)
  rw [makeDirectories] at made
  split at made
  · cases made
  · refine each _ tree (fun upper member => ?_) made start
    obtain ⟨onPath, isLower⟩ := List.mem_filter.1 (List.mem_reverse.1 member)
    exact ⟨onPath, by simpa using isLower⟩

theorem at?_makeDirectories (made : tree.makeDirectories path = some tree')
    (nonempty : others ≠ []) (isParts : ∀ part ∈ others, IsPart part) :
    tree'.at? others =
      if others ∈ stack path :: above (stack path) then some .directory else tree.at? others := by
  have each : ∀ (paths : List (List String)) (tree : FileTree),
      (∀ upper ∈ paths, upper ≠ [] ∧ ∀ part ∈ upper, IsPart part) →
      paths.foldlM makeDirectory tree = some tree' →
      tree'.at? others = if others ∈ paths then some .directory else tree.at? others := by
    intro paths
    induction paths with
    | nil => intro tree _ made; cases made; rfl
    | cons upper rest ih =>
      intro tree good made
      obtain ⟨here, later⟩ := List.forall_mem_cons.1 good
      rw [List.foldlM_cons] at made
      obtain ⟨between, first, made⟩ := Option.bind_eq_some_iff.1 made
      rw [ih between later made, at?_makeDirectory here.1 here.2 first isParts]
      simp only [List.mem_cons]
      split
      · next member => rw [if_pos (.inr member)]
      · next absent => simp only [absent, or_false]
  rw [makeDirectories] at made
  split at made
  · cases made
  · rw [each _ tree ?_ made]
    · simp [nonempty]
    · intro upper member
      obtain ⟨inPath, isLower⟩ := List.mem_filter.1 (List.mem_reverse.1 member)
      exact ⟨by simpa using isLower, isPart_of_mem_above isName_stack inPath⟩

/-- Directories that are all there are left as they are. -/
theorem makeDirectories_of_exist (fit : fits (stack path) = true)
    (exist : ∀ upper ∈ stack path :: above (stack path), upper ≠ [] →
      tree.at? upper = some .directory) : tree.makeDirectories path = some tree := by
  have each : ∀ paths : List (List String), (∀ upper ∈ paths, tree.at? upper = some .directory) →
      paths.foldlM makeDirectory tree = some tree := by
    intro paths
    induction paths with
    | nil => exact fun _ => rfl
    | cons upper rest ih =>
      intro there
      obtain ⟨here, later⟩ := List.forall_mem_cons.1 there
      have same : tree.makeDirectory upper = some tree := by
        rw [at?] at here
        rw [makeDirectory, here]
      rw [List.foldlM_cons, same]
      exact ih later
  rw [makeDirectories, fit]
  refine each _ ?_
  intro upper member
  obtain ⟨inPath, isLower⟩ := List.mem_filter.1 (List.mem_reverse.1 member)
  exact exist upper inPath (by simpa using isLower)

theorem fits_of_makeDirectories (made : tree.makeDirectories path = some tree') :
    fits (stack path) = true := by
  rw [makeDirectories] at made
  split at made
  · cases made
  · next fit => simpa using fit

theorem at?_write {content : Content} (written : tree.write path content = some tree')
    (isParts : ∀ part ∈ others, IsPart part) :
    stack path ≠ [] ∧ tree.at? (stack path) ≠ some .directory ∧
      tree'.at? others = if others = stack path then some (.file content) else tree.at? others := by
  rw [write] at written
  split at written
  · cases written
  · next fine =>
    cases written
    simp only [not_or, isDirectory, node?_eq, decide_eq_true_eq] at fine
    have nonempty : stack path ≠ [] := by
      intro root
      apply fine.2.2
      rw [if_pos root]
    have notDirectory : tree.at? (stack path) ≠ some .directory := by
      intro found
      apply fine.2.2
      rw [if_neg nonempty, found]
    refine ⟨nonempty, notDirectory, ?_⟩
    simp only [at?, Table.get?_insert, ofStack_eq_iff nonempty isPart_stack isParts]

/-- Writing a file and the directories above it. -/
theorem at?_writeAll {content : Content} (written : tree.writeAll path content = some tree')
    (nonempty : others ≠ []) (isParts : ∀ part ∈ others, IsPart part) :
    tree'.at? others =
      if others = stack path then some (.file content)
      else if others ∈ above (stack path) then some .directory
      else tree.at? others := by
  rw [writeAll, Option.bind_eq_bind, Option.bind_eq_some_iff] at written
  obtain ⟨between, made, written⟩ := written
  obtain ⟨pathNonempty, -, wrote⟩ := at?_write written isParts
  rw [wrote, at?_makeDirectories made nonempty isParts, stack_ofStack isName_tail_stack,
    above_of_ne_nil pathNonempty]

theorem not_directory_of_writeAll {content : Content}
    (written : tree.writeAll path content = some tree') :
    stack path ≠ [] ∧ tree.at? (stack path) ≠ some .directory := by
  rw [writeAll, Option.bind_eq_bind, Option.bind_eq_some_iff] at written
  obtain ⟨between, made, written⟩ := written
  obtain ⟨nonempty, notDirectory, -⟩ := at?_write written (@isPart_stack path)
  refine ⟨nonempty, ?_⟩
  intro found
  apply notDirectory
  rw [at?_makeDirectories made nonempty isPart_stack, found]
  split <;> rfl

theorem at?_removeFile (removed : tree.removeFile path = some tree')
    (isParts : ∀ part ∈ others, IsPart part) :
    (∃ content, tree.at? (stack path) = some (.file content)) ∧
      tree'.at? others = if others = stack path then none else tree.at? others := by
  rw [removeFile] at removed
  split at removed
  · next content isFile =>
    cases removed
    rw [file?, node?_eq] at isFile
    split at isFile
    · next content' found =>
      have nonempty : stack path ≠ [] := by
        intro root
        rw [if_pos root] at found
        cases found
      rw [if_neg nonempty] at found
      refine ⟨⟨_, found⟩, ?_⟩
      simp only [at?, Table.get?_erase, normal, ofStack_eq_iff nonempty isPart_stack isParts]
    · cases isFile
  · cases removed

end FileTree

end Clickstream
