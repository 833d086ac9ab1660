import Clickstream.FileTree

/-! # Paths as lists of names

A path is handled as the list of its parts, last one first. Reading a path that was written from
names gives the names back, so different lists of names are different paths, and a path that is put
together from a directory and a name adds the name to the parts of the directory.
-/

namespace Clickstream

namespace DiskPath

/-- A part of a path that stands for itself between slashes. -/
def IsPart (part : String) : Prop := part ≠ "" ∧ '/' ∉ part.toList

/-- A part of a path that names something in a directory. -/
structure IsName (part : String) : Prop where
  isPart : IsPart part
  ne_here : part ≠ "."
  ne_above : part ≠ ".."

/-- Take one more part of a path. -/
def push (parts : List String) (part : String) : List String :=
  if part = "" ∨ part = "." then parts
  else if part = ".." then parts.tail
  else part :: parts

theorem stack_eq_foldl (path : String) :
    stack path = (stack.split [] path.toList).foldl push [] := rfl

/-! ## Splitting -/

theorem split_of_not_mem {acc cs : List Char} (h : '/' ∉ cs) :
    stack.split acc cs = [String.ofList (acc.reverse ++ cs)] := by
  induction cs generalizing acc with
  | nil => simp [stack.split]
  | cons c rest ih =>
    rw [List.mem_cons, not_or] at h
    rw [stack.split, if_neg (Ne.symm h.1), ih h.2]
    simp

theorem split_append {acc cs ds : List Char} :
    stack.split acc (cs ++ '/' :: ds) = stack.split acc cs ++ stack.split [] ds := by
  induction cs generalizing acc with
  | nil => simp [stack.split]
  | cons c rest ih =>
    rw [List.cons_append, stack.split, stack.split]
    split
    · rw [ih, List.cons_append]
    · exact ih

theorem not_mem_of_mem_split {acc cs : List Char} {part : String} (hacc : '/' ∉ acc)
    (h : part ∈ stack.split acc cs) : '/' ∉ part.toList := by
  induction cs generalizing acc with
  | nil =>
    rw [stack.split, List.mem_singleton] at h
    simpa [h] using hacc
  | cons c rest ih =>
    rw [stack.split] at h
    split at h
    · rcases List.mem_cons.1 h with rfl | h
      · simpa using hacc
      · exact ih List.not_mem_nil h
    · next other =>
      apply ih _ h
      rw [List.mem_cons, not_or]
      exact ⟨Ne.symm other, hacc⟩

/-! ## Reading and writing -/

theorem stack_append {directory path : String} :
    stack (directory ++ "/" ++ path) =
      (stack.split [] path.toList).foldl push (stack directory) := by
  have chars : (directory ++ "/" ++ path).toList = directory.toList ++ '/' :: path.toList := by
    simp
  rw [stack_eq_foldl, chars, split_append, List.foldl_append, stack_eq_foldl]

theorem stack_append_part {directory part : String} (h : '/' ∉ part.toList) :
    stack (directory ++ "/" ++ part) = push (stack directory) part := by
  rw [stack_append, split_of_not_mem h]
  simp

theorem push_name {parts : List String} {part : String} (h : IsName part) :
    push parts part = part :: parts := by
  rw [push, if_neg, if_neg h.ne_above]
  rintro (empty | here)
  · exact h.isPart.1 empty
  · exact h.ne_here here

theorem stack_append_name {directory part : String} (h : IsName part) :
    stack (directory ++ "/" ++ part) = part :: stack directory := by
  rw [stack_append_part h.isPart.2, push_name h]

theorem isName_of_mem_push {parts : List String} {part other : String}
    (slashless : '/' ∉ part.toList) (names : ∀ name ∈ parts, IsName name)
    (h : other ∈ push parts part) : IsName other := by
  rw [push] at h
  split at h
  · exact names other h
  · next shown =>
    rw [not_or] at shown
    split at h
    · exact names other (List.mem_of_mem_tail h)
    · next below =>
      rcases List.mem_cons.1 h with rfl | h
      · exact ⟨⟨shown.1, slashless⟩, shown.2, below⟩
      · exact names other h

theorem isName_of_mem_stack {path part : String} (h : part ∈ stack path) : IsName part := by
  have each : ∀ (parts acc : List String), (∀ part ∈ parts, '/' ∉ part.toList) →
      (∀ name ∈ acc, IsName name) → ∀ name ∈ parts.foldl push acc, IsName name := by
    intro parts
    induction parts with
    | nil => exact fun acc _ names => names
    | cons first rest ih =>
      intro acc slashless names
      obtain ⟨here, later⟩ := List.forall_mem_cons.1 slashless
      exact ih _ later fun name member => isName_of_mem_push here names member
  rw [stack_eq_foldl] at h
  refine each _ [] ?_ (by simp) part h
  intro part member
  exact not_mem_of_mem_split List.not_mem_nil member

theorem ofStack_cons {part : String} {parts : List String} (h : parts ≠ []) :
    ofStack (part :: parts) = ofStack parts ++ "/" ++ part := by
  rw [ofStack, ofStack, List.reverse_cons,
    String.intercalate_append_of_ne_nil (by simpa using h) (by simp), String.intercalate_singleton]
  simp only [String.append_assoc]

/-- The parts of a path as it is written, in order and after an empty one. -/
theorem split_ofStack {parts : List String} (h : parts ≠ [])
    (slashless : ∀ part ∈ parts, IsPart part) :
    stack.split [] (ofStack parts).toList = "" :: parts.reverse := by
  induction parts with
  | nil => contradiction
  | cons part rest ih =>
    obtain ⟨here, later⟩ := List.forall_mem_cons.1 slashless
    have last : stack.split [] part.toList = [part] := by
      rw [split_of_not_mem here.2]
      simp
    cases rest with
    | nil =>
      have chars : (ofStack [part]).toList = [] ++ '/' :: part.toList := by simp [ofStack]
      rw [chars, split_append, last]
      rfl
    | cons second rest =>
      have nonempty : second :: rest ≠ [] := List.cons_ne_nil _ _
      have chars : (ofStack (part :: second :: rest)).toList =
          (ofStack (second :: rest)).toList ++ '/' :: part.toList := by
        rw [ofStack_cons nonempty]
        simp
      rw [chars, split_append, ih nonempty later, last, List.reverse_cons (a := part)]
      rfl

theorem ofStack_ne_root {parts : List String} (h : parts ≠ [])
    (slashless : ∀ part ∈ parts, IsPart part) : ofStack parts ≠ "/" := by
  intro root
  have split := split_ofStack h slashless
  rw [root] at split
  have none : ["", ""] = "" :: parts.reverse := split
  have member : "" ∈ parts := by
    rw [← List.mem_reverse, ← (List.cons.inj none).2]
    exact List.mem_singleton_self _
  exact (slashless "" member).1 rfl

theorem ofStack_inj {parts others : List String} (h : parts ≠ [])
    (slashless : ∀ part ∈ parts, IsPart part) (slashless' : ∀ part ∈ others, IsPart part)
    (same : ofStack parts = ofStack others) : parts = others := by
  cases others with
  | nil => exact (ofStack_ne_root h slashless same).elim
  | cons first rest =>
    have split := split_ofStack h slashless
    rw [same, split_ofStack (List.cons_ne_nil _ _) slashless'] at split
    exact (List.reverse_inj.1 (List.cons.inj split).2).symm

theorem ofStack_eq_iff {parts others : List String} (h : parts ≠ [])
    (slashless : ∀ part ∈ parts, IsPart part) (slashless' : ∀ part ∈ others, IsPart part) :
    ofStack others = ofStack parts ↔ others = parts :=
  ⟨fun same => (ofStack_inj h slashless slashless' same.symm).symm, congrArg ofStack⟩

theorem foldl_push {names parts : List String} (h : ∀ name ∈ names, IsName name) :
    names.foldl push parts = names.reverse ++ parts := by
  induction names generalizing parts with
  | nil => rfl
  | cons name rest ih =>
    obtain ⟨here, later⟩ := List.forall_mem_cons.1 h
    rw [List.foldl_cons, push_name here, ih later]
    simp

theorem stack_ofStack {parts : List String} (h : ∀ part ∈ parts, IsName part) :
    stack (ofStack parts) = parts := by
  cases parts with
  | nil => rfl
  | cons part rest =>
    rw [stack_eq_foldl,
      split_ofStack (List.cons_ne_nil _ _) fun part member => (h part member).isPart]
    have reversed : ∀ name ∈ (part :: rest).reverse, IsName name :=
      fun name member => h name (List.mem_reverse.1 member)
    rw [List.foldl_cons, foldl_push reversed, List.reverse_reverse]
    exact List.append_nil _

/-- A path is named by its last part, unless that goes up. -/
theorem name?_append {directory part : String} (isPart : IsPart part) (shown : part ≠ ".") :
    name? (directory ++ "/" ++ part) = if part = ".." then none else some part := by
  have chars : (directory ++ "/" ++ part).toList = directory.toList ++ '/' :: part.toList := by
    simp
  rw [name?, components, segments, chars, split_append, split_of_not_mem isPart.2,
    List.filter_append]
  by_cases up : part = ".." <;> simp [isPart.1, shown, up]

/-- A part seen from a directory is put after a slash. -/
theorem exists_join_eq {directory part : String} (slashless : '/' ∉ part.toList) :
    ∃ start, join directory part = start ++ "/" ++ part ∧ stack start = stack directory := by
  have relative : isAbsolute part = false := by
    rw [isAbsolute, Bool.eq_false_iff]
    intro starts
    obtain ⟨rest, same⟩ := String.startsWith_string_iff.1 starts
    apply slashless
    rw [← same]
    simp
  rw [join, if_neg (by simp [relative])]
  split
  · next ends =>
    obtain ⟨start, same⟩ := String.endsWith_char_iff_exists_append.1 ends
    -- What follows the slash at the end of the directory is an empty part.
    have noPart : stack (start ++ "/" ++ "") = stack start := stack_append_part (by simp)
    rw [String.append_empty] at noPart
    exact ⟨start, by rw [same]; rfl, by rw [same]; exact noPart.symm⟩
  · exact ⟨directory, rfl, rfl⟩

theorem name?_join {directory part : String} (h : IsName part) :
    name? (join directory part) = some part := by
  obtain ⟨start, same, -⟩ := @exists_join_eq directory part h.isPart.2
  rw [same, name?_append h.isPart h.ne_here, if_neg h.ne_above]

/-- What is above a directory has no name there. -/
theorem name?_join_above {directory : String} : name? (join directory "..") = none := by
  obtain ⟨start, same, -⟩ := @exists_join_eq directory ".." (by decide)
  rw [same, name?_append ⟨by decide, by decide⟩ (by decide), if_pos rfl]

theorem stack_join {directory part : String} (h : IsName part) :
    stack (join directory part) = part :: stack directory := by
  obtain ⟨start, same, sameStack⟩ := @exists_join_eq directory part h.isPart.2
  rw [same, stack_append_name h, sameStack]

end DiskPath

end Clickstream
