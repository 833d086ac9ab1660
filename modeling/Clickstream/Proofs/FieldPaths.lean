import Mathlib.Data.List.Basic
import Clickstream.Item
import Clickstream.Proofs.Tables

/-! # Following a path

A dotted path can be cut into keys in many ways, for a key may hold dots itself. An item has a field
at the path if one of the cuts leads through nested objects to a value. Of all cuts that do, the one
counts that has the longest key at the first level where they differ, so a longer key from which the
rest of the path cannot be followed does not hide a shorter one.
-/

namespace Clickstream

namespace FieldPath

variable {fields : Fields Json} {name key : String} {value : Json} {path : List String}

/-- The single name that some parts of a path make up. -/
def joined (name : String) : List String → String
  | [] => name
  | segment :: rest => joined (name ++ "." ++ segment) rest

theorem joined_append {before : String} :
    joined (before ++ name) path = before ++ joined name path := by
  induction path generalizing name with
  | nil => rfl
  | cons segment rest ih =>
    rw [joined, joined, ← ih, String.append_assoc, String.append_assoc, String.append_assoc]

theorem joined_eq_intercalate : joined name path = ".".intercalate (name :: path) := by
  induction path generalizing name with
  | nil => rw [joined, String.intercalate_singleton]
  | cons segment rest ih =>
    rw [joined, joined_append, ih, String.intercalate_cons_cons]

/-! ## The parts of a path -/

private theorem exists_split (part cs : List Char) : ∃ first rest,
    segments.split part cs = first :: rest ∧
      joined first rest = String.ofList (part.reverse ++ cs) := by
  induction cs generalizing part with
  | nil => exact ⟨_, [], rfl, by rw [joined, List.append_nil]⟩
  | cons c rest ih =>
    rw [segments.split]
    split
    · next dot =>
      obtain ⟨first, others, cut, whole⟩ := ih []
      refine ⟨_, first :: others, by rw [cut], ?_⟩
      rw [joined, joined_append, whole, ← String.toList_inj]
      simp [dot]
    · obtain ⟨first, others, cut, whole⟩ := ih (c :: part)
      exact ⟨first, others, cut, by simpa using whole⟩

/-- The parts of a path make up the path. -/
theorem exists_segments (path : String) :
    ∃ first rest, segments path = first :: rest ∧ joined first rest = path := by
  obtain ⟨first, rest, cut, whole⟩ := exists_split [] path.toList
  exact ⟨first, rest, cut, by simpa using whole⟩

private theorem split_append {part name cs : List Char} (dotless : '.' ∉ name) :
    segments.split part (name ++ '.' :: cs) =
      String.ofList (part.reverse ++ name) :: segments.split [] cs := by
  induction name generalizing part with
  | nil => simp [segments.split]
  | cons c rest ih =>
    rw [List.mem_cons, not_or] at dotless
    rw [List.cons_append, segments.split, if_neg (Ne.symm dotless.1), ih dotless.2]
    simp

theorem segments_append {path : String} (dotless : '.' ∉ name.toList) :
    segments (name ++ "." ++ path) = name :: segments path := by
  have chars : (name ++ "." ++ path).toList = name.toList ++ '.' :: path.toList := by simp
  rw [segments, chars, split_append dotless]
  simp [segments]

private theorem split_dotless {part cs : List Char} (dotless : '.' ∉ cs) :
    segments.split part cs = [String.ofList (part.reverse ++ cs)] := by
  induction cs generalizing part with
  | nil => rw [segments.split, List.append_nil]
  | cons c rest ih =>
    rw [List.mem_cons, not_or] at dotless
    rw [segments.split, if_neg (Ne.symm dotless.1), ih dotless.2]
    simp

private theorem dotless_of_mem_split {part cs : List Char} {segment : String}
    (clean : '.' ∉ part) (member : segment ∈ segments.split part cs) : '.' ∉ segment.toList := by
  induction cs generalizing part with
  | nil =>
    rw [segments.split, List.mem_singleton] at member
    simpa [member] using clean
  | cons c rest ih =>
    rw [segments.split] at member
    split at member
    · rcases List.mem_cons.1 member with rfl | member
      · simpa using clean
      · exact ih List.not_mem_nil member
    · next other =>
      refine ih ?_ member
      rw [List.mem_cons, not_or]
      exact ⟨Ne.symm other, clean⟩

/-- The parts of a path are the texts without dots that make it up when dots are put between. -/
theorem eq_segments_iff {parts : List String} {path : String} : parts = segments path ↔
    parts ≠ [] ∧ (∀ part ∈ parts, '.' ∉ part.toList) ∧ ".".intercalate parts = path := by
  constructor
  · rintro rfl
    obtain ⟨first, rest, cut, whole⟩ := exists_segments path
    refine ⟨by simp [cut], fun part => dotless_of_mem_split List.not_mem_nil, ?_⟩
    rw [cut, ← joined_eq_intercalate, whole]
  · rintro ⟨some, dotless, rfl⟩
    induction parts with
    | nil => exact absurd rfl some
    | cons part rest ih =>
      obtain ⟨clean, dotless⟩ := List.forall_mem_cons.1 dotless
      cases rest with
      | nil => rw [String.intercalate_singleton, segments, split_dotless clean]; simp
      | cons next rest =>
        rw [String.intercalate_cons_cons, segments_append clean,
          ← ih (List.cons_ne_nil _ _) dotless]

/-! ## One step of a look-up -/

/-- One more name belongs to a longer field, else it is looked up in the object so far. -/
theorem follow_cons {segment : String} : follow fields name (segment :: path) =
    (follow fields (name ++ "." ++ segment) path).or
      (((fields.get? name).bind Json.object?).bind fun inner => follow inner segment path) := by
  rw [follow]
  congr 1
  cases fields.get? name with
  | none => rfl
  | some value => cases value <;> rfl

/-- The field of the whole name comes before every cut of the path. -/
theorem follow_of_get? (h : fields.get? (joined name path) = some value) :
    follow fields name path = some value := by
  induction path generalizing name with
  | nil => exact h
  | cons segment rest ih => rw [follow_cons, ih h, Option.some_or]

/-- Fields that hold no objects leave nothing but the whole name. -/
theorem follow_eq_get? (flat : ∀ name value, fields.get? name = some value → value.object? = none) :
    follow fields name path = fields.get? (joined name path) := by
  induction path generalizing name with
  | nil => rfl
  | cons segment rest ih =>
    have nowhere : (fields.get? name).bind Json.object? = none := by
      rw [Option.bind_eq_none_iff]
      exact flat name
    rw [follow_cons, nowhere, Option.bind_none, Option.or_none, ih, joined]

/-- Fields with dotless names hold nothing under a name with a dot. -/
theorem follow_eq_none (dotless : ∀ pair ∈ fields, '.' ∉ pair.1.toList)
    (dotted : '.' ∈ name.toList) : follow fields name path = none := by
  have absent : ∀ {name : String}, '.' ∈ name.toList → fields.get? name = none := by
    intro name dotted
    refine Fields.get?_eq_none.2 fun pair listed same => dotless pair listed ?_
    rw [same]
    exact dotted
  induction path generalizing name with
  | nil => exact absent dotted
  | cons segment rest ih =>
    rw [follow_cons, ih (by simp), absent dotted]
    rfl

/-- A new field that holds no object matters only to the path that makes up its name. -/
theorem follow_insert (absent : fields.get? key = none) (flat : value.object? = none)
    (other : joined name path ≠ key) :
    follow (fields.insert key value) name path = follow fields name path := by
  induction path generalizing name with
  | nil => rw [follow, follow, Fields.get?_insert, if_neg (show name ≠ key from other)]
  | cons segment rest ih =>
    have inside : ((fields.insert key value).get? name).bind Json.object? =
        (fields.get? name).bind Json.object? := by
      rw [Fields.get?_insert]
      split
      · next same => rw [same, absent, Option.bind_some, flat, Option.bind_none]
      · rfl
    rw [follow_cons, follow_cons, ih other, inside]

/-- What a path under an object of fields with dotless names leads to. -/
theorem lookup_append {inner : Fields Json} {path : String} (dotless : '.' ∉ name.toList)
    (names : ∀ pair ∈ fields, '.' ∉ pair.1.toList)
    (found : fields.get? name = some (.object inner)) :
    lookup fields (segments (name ++ "." ++ path)) = lookup inner (segments path) := by
  obtain ⟨first, rest, cut, _⟩ := exists_segments path
  rw [segments_append dotless, cut, lookup, lookup, follow_cons, follow_eq_none names (by simp),
    found]
  rfl

theorem lookup_of_get? {path : String} (h : fields.get? path = some value) :
    lookup fields (segments path) = some value := by
  obtain ⟨first, rest, cut, whole⟩ := exists_segments path
  rw [cut, lookup, follow_of_get? (whole.symm ▸ h)]

theorem lookup_eq_get? {path : String}
    (flat : ∀ name value, fields.get? name = some value → value.object? = none) :
    lookup fields (segments path) = fields.get? path := by
  obtain ⟨first, rest, cut, whole⟩ := exists_segments path
  rw [cut, lookup, follow_eq_get? flat, whole]

theorem lookup_insert {path : String} (absent : fields.get? key = none)
    (flat : value.object? = none) (other : path ≠ key) :
    lookup (fields.insert key value) (segments path) = lookup fields (segments path) := by
  obtain ⟨first, rest, cut, whole⟩ := exists_segments path
  rw [cut, lookup, lookup, follow_insert absent flat (whole.symm ▸ other)]

/-! ## Cuts -/

/-- The key that a group of parts makes up. -/
def keyOf (group : List String) : String := ".".intercalate group

/-- A path cut into groups: its parts in order, at least one of them in every group. -/
structure IsCut (groups : List (List String)) (path : String) : Prop where
  filled : ∀ group ∈ groups, group ≠ []
  nonempty : groups.flatten ≠ []
  /-- Parts hold no dots. -/
  dotless : ∀ part ∈ groups.flatten, '.' ∉ part.toList
  whole : ".".intercalate groups.flatten = path

/-- The keys of some groups lead from an object through nested ones to a value. -/
inductive Leads : Fields Json → List (List String) → Json → Prop where
  | last {fields : Fields Json} {group : List String} {value : Json} :
      fields.get? (keyOf group) = some value → Leads fields [group] value
  | onward {fields inner : Fields Json} {group : List String} {groups : List (List String)}
      {value : Json} : fields.get? (keyOf group) = some (.object inner) →
      Leads inner groups value → Leads fields (group :: groups) value

/-- At the first level where two cuts differ, the one has the longer key. -/
inductive Prefers : List (List String) → List (List String) → Prop where
  | longer {group other : List String} {groups others : List (List String)} :
      other.length < group.length → Prefers (group :: groups) (other :: others)
  | later {group : List String} {groups others : List (List String)} :
      Prefers groups others → Prefers (group :: groups) (group :: others)

/-- Among some cuts, one that leads to a value and is preferred to all others that lead anywhere. -/
structure Chosen (fields : Fields Json) (among : List (List String) → Prop)
    (groups : List (List String)) (value : Json) : Prop where
  mem : among groups
  leads : Leads fields groups value
  preferred : ∀ other found, among other → Leads fields other found →
    other = groups ∨ Prefers groups other

section

variable {groups others : List (List String)} {found : Json} {among : List (List String) → Prop}

theorem isCut_iff {path : String} :
    IsCut groups path ↔ (∀ group ∈ groups, group ≠ []) ∧ groups.flatten = segments path := by
  rw [eq_segments_iff]
  exact ⟨fun ⟨filled, nonempty, dotless, whole⟩ => ⟨filled, nonempty, dotless, whole⟩,
    fun ⟨filled, nonempty, dotless, whole⟩ => ⟨filled, nonempty, dotless, whole⟩⟩

theorem Leads.unique (h : Leads fields groups value) (h' : Leads fields groups found) :
    found = value := by
  induction h with
  | last isValue =>
    cases h' with
    | last isFound => exact Option.some_inj.1 (isFound.symm.trans isValue)
    | onward _ nowhere => cases nowhere
  | onward isObject leads ih =>
    cases h' with
    | last => cases leads
    | onward isObject' leads' =>
      cases isObject.symm.trans isObject'
      exact ih leads'

theorem Prefers.asymm (h : Prefers groups others) : ¬ Prefers others groups := by
  induction h with
  | longer less =>
    rintro (less' | back)
    · exact Nat.lt_asymm less less'
    · exact Nat.lt_irrefl _ less
  | later _ ih =>
    rintro (less | back)
    · exact Nat.lt_irrefl _ less
    · exact ih back

/-- At most one value is chosen. -/
theorem Chosen.unique (h : Chosen fields among groups value)
    (h' : Chosen fields among others found) : found = value := by
  suffices same : others = groups by
    subst same
    exact h.leads.unique h'.leads
  rcases h.preferred others found h'.mem h'.leads with same | before
  · exact same
  · rcases h'.preferred groups value h.mem h.leads with same | after
    · exact same.symm
    · exact absurd after before.asymm

/-! ## What is followed is what is chosen -/

/-- Groups of which the first begins with some parts, and that go on with the rest of a path. -/
def Extends (taken rest : List String) (groups : List (List String)) : Prop :=
  ∃ more others, groups = (taken ++ more) :: others ∧ more ++ others.flatten = rest ∧
    ∀ group ∈ others, group ≠ []

variable {taken rest : List String} {part : String}

theorem extends_nil : Extends taken [] groups ↔ groups = [taken] := by
  constructor
  · rintro ⟨more, others, rfl, none, filled⟩
    obtain ⟨rfl, none⟩ := List.append_eq_nil_iff.1 none
    cases others with
    | nil => rw [List.append_nil]
    | cons group others =>
      have empty : group = [] := List.flatten_eq_nil_iff.1 none group List.mem_cons_self
      exact absurd empty (filled group List.mem_cons_self)
  · rintro rfl
    exact ⟨[], [], by rw [List.append_nil], rfl, by simp⟩

/-- The next part belongs to the first group or begins the second one. -/
theorem extends_cons : Extends taken (part :: rest) groups ↔
    Extends (taken ++ [part]) rest groups ∨
      ∃ others, groups = taken :: others ∧ Extends [part] rest others := by
  constructor
  · rintro ⟨more, others, rfl, whole, filled⟩
    cases more with
    | cons first more =>
      obtain ⟨rfl, after⟩ := List.cons.inj whole
      exact .inl ⟨more, others, by simp, after, filled⟩
    | nil =>
      rw [List.append_nil, List.nil_append] at *
      cases others with
      | nil => cases whole
      | cons group others =>
        obtain ⟨some, beyond⟩ := List.forall_mem_cons.1 filled
        obtain ⟨first, more, rfl⟩ := List.exists_cons_of_ne_nil some
        obtain ⟨rfl, after⟩ := List.cons.inj whole
        exact .inr ⟨_, rfl, more, others, rfl, after, beyond⟩
  · rintro (⟨more, others, rfl, rfl, filled⟩ | ⟨_, rfl, more, others, rfl, rfl, filled⟩)
    · exact ⟨part :: more, others, by simp, rfl, filled⟩
    · refine ⟨[], _, by rw [List.append_nil], rfl, ?_⟩
      exact List.forall_mem_cons.2 ⟨List.cons_ne_nil _ _, filled⟩

theorem isCut_iff_extends {path first : String} (parts : segments path = first :: rest) :
    IsCut groups path ↔ Extends [first] rest groups := by
  rw [isCut_iff, parts]
  constructor
  · rintro ⟨filled, whole⟩
    cases groups with
    | nil => cases whole
    | cons group others =>
      obtain ⟨some, beyond⟩ := List.forall_mem_cons.1 filled
      obtain ⟨part, more, rfl⟩ := List.exists_cons_of_ne_nil some
      obtain ⟨rfl, after⟩ := List.cons.inj whole
      exact ⟨more, others, rfl, after, beyond⟩
  · rintro ⟨more, others, rfl, rfl, filled⟩
    exact ⟨List.forall_mem_cons.2 ⟨List.cons_ne_nil _ _, filled⟩, rfl⟩

theorem keyOf_concat (some : taken ≠ []) :
    keyOf (taken ++ [part]) = keyOf taken ++ "." ++ part := by
  rw [keyOf, String.intercalate_append_of_ne_nil some (by simp), String.intercalate_singleton,
    keyOf]

theorem keyOf_singleton : keyOf [part] = part := String.intercalate_singleton

theorem leads_singleton : Leads fields [taken] value ↔ fields.get? (keyOf taken) = some value := by
  refine ⟨fun leads => ?_, .last⟩
  cases leads with
  | last isValue => exact isValue
  | onward _ nowhere => cases nowhere

/-- Where some groups lead, following the path does not end in nothing. -/
theorem isSome_follow (some : taken ≠ []) (h : Extends taken rest groups)
    (leads : Leads fields groups value) : (follow fields (keyOf taken) rest).isSome = true := by
  induction rest generalizing fields taken groups with
  | nil =>
    rw [extends_nil.1 h, leads_singleton] at leads
    rw [follow, leads, Option.isSome_some]
  | cons part rest ih =>
    rw [follow_cons, Option.isSome_or, Bool.or_eq_true]
    rcases extends_cons.1 h with longer | ⟨others, rfl, begun⟩
    · rw [← keyOf_concat some]
      exact .inl (ih (by simp) longer leads)
    · cases leads with
      | last => obtain ⟨_, _, none, -⟩ := begun; cases none
      | onward isObject leads =>
        rw [isObject, Option.bind_some, Json.object?, Option.bind_some, ← @keyOf_singleton part]
        exact .inr (ih (by simp) begun leads)

/-- What following a path yields is chosen among the groups that go on with it. -/
theorem exists_chosen (some : taken ≠ []) (h : follow fields (keyOf taken) rest = .some value) :
    ∃ groups, Chosen fields (Extends taken rest) groups value := by
  induction rest generalizing fields taken with
  | nil =>
    refine ⟨[taken], extends_nil.2 rfl, .last h, fun other found mem _ => .inl (extends_nil.1 mem)⟩
  | cons part rest ih =>
    rw [follow_cons, ← keyOf_concat some] at h
    cases longer : follow fields (keyOf (taken ++ [part])) rest with
    | some found =>
      rw [longer, Option.some_or] at h
      cases h
      obtain ⟨groups, mem, leads, preferred⟩ := ih (by simp) longer
      refine ⟨groups, extends_cons.2 (.inl mem), leads, fun other found inOther leads' => ?_⟩
      rcases extends_cons.1 inOther with inOther | ⟨others, rfl, -⟩
      · exact preferred other found inOther leads'
      · obtain ⟨more, others, rfl, -⟩ := mem
        exact .inr (.longer (by simp))
    | none =>
      -- No longer key leads anywhere, so every cut that does begins with this one.
      rw [longer, Option.none_or, Option.bind_eq_some_iff] at h
      obtain ⟨inner, isObject, h⟩ := h
      obtain ⟨object, isValue, isObject⟩ := Option.bind_eq_some_iff.1 isObject
      obtain rfl : object = .object inner := by cases object <;> cases isObject; rfl
      rw [← @keyOf_singleton part] at h
      obtain ⟨groups, mem, leads, preferred⟩ := ih (by simp) h
      refine ⟨taken :: groups, extends_cons.2 (.inr ⟨groups, rfl, mem⟩), .onward isValue leads, ?_⟩
      intro other found inOther leads'
      rcases extends_cons.1 inOther with isLonger | ⟨others, rfl, begun⟩
      · have nothing := isSome_follow (by simp) isLonger leads'
        rw [longer] at nothing
        cases nothing
      · cases leads' with
        | last => obtain ⟨_, _, none, -⟩ := begun; cases none
        | onward isObject' leads' =>
          cases isValue.symm.trans isObject'
          exact (preferred others found begun leads').imp (congrArg _) .later

/-- A look-up yields the value that is chosen among the cuts of the path. -/
theorem lookup_eq_some_iff {path : String} : lookup fields (segments path) = some value ↔
    ∃ groups, Chosen fields (fun groups => IsCut groups path) groups value := by
  obtain ⟨first, rest, parts, -⟩ := exists_segments path
  have cuts : (fun groups => IsCut groups path) = Extends [first] rest := by
    funext groups
    exact propext (isCut_iff_extends parts)
  have follows : lookup fields (segments path) = follow fields (keyOf [first]) rest := by
    rw [parts, lookup, keyOf_singleton]
  rw [follows, cuts]
  refine ⟨exists_chosen (List.cons_ne_nil _ _), fun ⟨groups, chosen⟩ => ?_⟩
  obtain ⟨found, isFound⟩ := Option.isSome_iff_exists.1
    (isSome_follow (List.cons_ne_nil _ _) chosen.mem chosen.leads)
  obtain ⟨others, chosen'⟩ := exists_chosen (List.cons_ne_nil _ _) isFound
  rw [isFound, chosen.unique chosen']

/-- A look-up yields a value if any cut of the path leads to one. -/
theorem exists_lookup_iff {path : String} : (∃ value, lookup fields (segments path) = some value) ↔
    ∃ groups value, IsCut groups path ∧ Leads fields groups value := by
  constructor
  · rintro ⟨value, found⟩
    obtain ⟨groups, chosen⟩ := lookup_eq_some_iff.1 found
    exact ⟨groups, value, chosen.mem, chosen.leads⟩
  · rintro ⟨groups, value, cut, leads⟩
    obtain ⟨first, rest, parts, -⟩ := exists_segments path
    rw [parts, lookup, ← Option.isSome_iff_exists, ← @keyOf_singleton first]
    exact isSome_follow (List.cons_ne_nil _ _) ((isCut_iff_extends parts).1 cut) leads

end

end FieldPath

/-- An item has a field at a path exactly if a cut of the path leads through nested objects to a
value. The field is then the value of the cut that has, level by level, the longest key from which
the rest of the path can be followed. -/
theorem Item.field?_follows_longest (item : Item) {path : String} (notId : path ≠ "itemId")
    (notType : path ≠ "itemType") :
    ((∃ value, item.field? path = some value) ↔
      ∃ groups value, FieldPath.IsCut groups path ∧ FieldPath.Leads item.body groups value) ∧
    ∀ value, item.field? path = some value ↔
      ∃ groups, FieldPath.Chosen item.body (fun cut => FieldPath.IsCut cut path) groups value := by
  rw [Item.field?, if_neg (not_or.2 ⟨notId, notType⟩)]
  exact ⟨FieldPath.exists_lookup_iff, fun _ => FieldPath.lookup_eq_some_iff⟩

/-- The longest key leads nowhere; of two ways under the shorter one the longer key is taken. -/
theorem Item.field?_follows_longest_deadEnd :
    let one := Json.number (.integer 1)
    let two := Json.number (.integer 2)
    let item : Item := ⟨"i", "note",
      [("a", .object [("b", .object [("c", one)]), ("b.c", two)]), ("a.b", .object [("d", one)])]⟩
    "a.b.c" ≠ "itemId" ∧ "a.b.c" ≠ "itemType" ∧ item.field? "a.b.c" = some two ∧
      ∃ groups, FieldPath.Chosen item.body (fun cut => FieldPath.IsCut cut "a.b.c") groups two := by
  intro one two item
  have found : item.field? "a.b.c" = some two := rfl
  have notId : "a.b.c" ≠ "itemId" := by decide
  have notType : "a.b.c" ≠ "itemType" := by decide
  exact ⟨notId, notType, found, ((item.field?_follows_longest notId notType).2 two).1 found⟩

end Clickstream
