import Mathlib.Logic.Relation
import Clickstream.Proofs.Tables
import Clickstream.Registry

/-! # Conditions inside conditions

Which conditions a condition can be asked for, parameter by parameter and to any depth, and which of
them its collected type ids cover. A document that is spelled out, an object with its parameters, is
collected and so are the documents below it. A document may also leave its parameters out or give
its fields by position; it is still read as a condition but never collected, so resolving a
condition says nothing about what such a document refers to.
-/

namespace Clickstream

/-- An object that says its parameters. -/
def Json.IsSpelledOut : Json → Prop
  | .object fields => (Fields.get? fields "parameterValues").isSome = true
  | _ => False

namespace Condition

/-- The documents that the conditions under a parameter are read from. -/
def documents (c : Condition) (name : String) : List Json :=
  match c.parameter? name with
  | some (.array items) => items
  | some (.object fields) => [.object fields]
  | _ => []

/-- One of the three ways to ask a condition for conditions under its parameters gives another. -/
inductive Yields (c inner : Condition) : Prop
  | conditions {name : String} {found : List Condition} :
    c.conditions name = .ok found → inner ∈ found → Yields c inner
  | condition {name : String} : c.condition? name = .ok (some inner) → Yields c inner
  | subConditions {found : List Condition} :
    c.subConditions = .ok found → inner ∈ found → Yields c inner

/-- A condition gives another, which it reads from a document that is spelled out. -/
def YieldsSpelledOut (c inner : Condition) : Prop :=
  ∃ name found document, c.conditions name = .ok found ∧ document ∈ c.documents name ∧
    ofJson? document = some inner ∧ document.IsSpelledOut

/-- A condition gives another after one request or several. -/
def Reaches : Condition → Condition → Prop := Relation.TransGen Yields

/-- A condition gives another after one request or several, all documents on the way being spelled
out. -/
def ReachesSpelledOut : Condition → Condition → Prop := Relation.TransGen YieldsSpelledOut

/-! ## What is read and what is collected -/

/-- Everything that a condition yields is read from one of its documents, spelled out or not. -/
theorem Yields.exists_document {c inner : Condition} (h : c.Yields inner) :
    ∃ name found document, c.conditions name = .ok found ∧ document ∈ c.documents name ∧
      ofJson? document = some inner := by
  have read : ∀ {name found}, c.conditions name = .ok found → inner ∈ found →
      ∃ document ∈ c.documents name, ofJson? document = some inner := by
    intro name found asked member
    rw [Condition.conditions] at asked
    rw [documents]
    split at asked
    · cases asked; simp at member
    · cases asked; simp at member
    · next items eq => rw [eq]; exact mem_of_ofValues? asked member
    · next fields eq => rw [eq]; exact mem_of_ofValues? asked member
    · cases asked
  cases h with
  | conditions asked member =>
    obtain ⟨document, inside, eq⟩ := read asked member
    exact ⟨_, _, document, asked, inside, eq⟩
  | @condition name asked =>
    rw [condition?] at asked
    cases all : c.conditions name with
    | error e => rw [all] at asked; cases asked
    | ok found =>
      rw [all] at asked
      have member : inner ∈ found := List.mem_of_mem_head? (Except.ok.inj asked)
      obtain ⟨document, inside, eq⟩ := read all member
      exact ⟨_, _, document, all, inside, eq⟩
  | subConditions asked member =>
    obtain ⟨document, inside, eq⟩ := read asked member
    exact ⟨_, _, document, asked, inside, eq⟩

theorem idsIn_subset_items {value : Json} {items : List Json} (h : value ∈ items) :
    idsIn value ⊆ idsInItems items := by
  induction items with
  | nil => simp at h
  | cons head rest ih =>
    rw [idsInItems]
    rcases List.mem_cons.1 h with rfl | h
    · exact List.subset_append_left _ _
    · exact List.Subset.trans (ih h) (List.subset_append_right _ _)

theorem idsIn_subset_fields {fields : Fields Json} {name : String} {value : Json}
    (h : fields.get? name = some value) : idsIn value ⊆ idsInFields fields := by
  induction fields with
  | nil => simp at h
  | cons head rest ih =>
    obtain ⟨key, first⟩ := head
    rw [idsInFields]
    rw [Fields.get?_cons] at h
    split at h
    · obtain rfl := Option.some.inj h
      exact List.subset_append_left _ _
    · exact List.Subset.trans (ih h) (List.subset_append_right _ _)

theorem idsUnder_of_get? {fields parameters : Fields Json}
    (h : fields.get? "parameterValues" = some (.object parameters)) :
    idsUnder fields = idsInFields parameters := by
  induction fields with
  | nil => simp at h
  | cons head rest ih =>
    obtain ⟨key, first⟩ := head
    rw [Fields.get?_cons] at h
    split at h
    · next same =>
      obtain rfl := Option.some.inj h
      rw [idsUnder, if_pos same]
    · next other =>
      rw [idsUnder.eq_def]
      exact (if_neg other).trans (ih h)

/-- The field that a group of names picks is the only one of the group. -/
theorem get?_of_pick? {fields : Fields Json} {group : List String} {value : Json}
    (h : Record.pick? fields group = some (some value)) :
    ∃ name ∈ group, ∀ other ∈ group,
      fields.get? other = if other = name then some value else none := by
  rw [Record.pick?] at h
  split at h
  · simp at h
  · next field eq =>
    obtain rfl := Option.some.inj (Option.some.inj h)
    have member : field ∈ fields.filter fun f => group.contains f.1 :=
      eq ▸ List.mem_singleton_self _
    refine ⟨field.1, by simpa using (List.mem_filter.1 member).2, fun other inGroup => ?_⟩
    have kept := @Fields.get?_filter_name _ fields other (group.contains ·)
    rw [eq, if_pos (by simpa using inGroup), Fields.get?_cons, Fields.get?_nil] at kept
    rw [← kept]
    grind
  · simp at h

theorem get?_of_pick?_none {fields : Fields Json} {group : List String}
    (h : Record.pick? fields group = some none) {name : String} (member : name ∈ group) :
    fields.get? name = none := by
  rw [Record.pick?] at h
  split at h
  · next eq =>
    have kept := @Fields.get?_filter_name _ fields name (group.contains ·)
    rw [eq, if_pos (by simpa using member)] at kept
    exact kept.symm
  · simp at h
  · simp at h

/-- What is collected from a document that is spelled out: its type and what its parameters hold. -/
theorem idsIn_of_isSpelledOut {document : Json} {c : Condition} (h : document.IsSpelledOut)
    (read : ofJson? document = some c) : idsIn document = c.typeId :: idsInFields c.parameters := by
  cases document with
  | object fields =>
    obtain ⟨record, picked, parts⟩ := Option.bind_eq_some_iff.1 read
    simp only [Record.ofFields?, fieldNames, List.mapM_cons, List.mapM_nil, Option.bind_eq_bind,
      Option.pure_def, Option.bind_some] at picked
    obtain ⟨first, typePicked, picked⟩ := Option.bind_eq_some_iff.1 picked
    obtain ⟨rest, picked, eq⟩ := Option.bind_eq_some_iff.1 picked
    obtain ⟨second, parametersPicked, eq'⟩ := Option.bind_eq_some_iff.1 picked
    obtain rfl := Option.some.inj eq'
    obtain rfl := Option.some.inj eq
    have typed : ∀ typeId, first = some (.string typeId) →
        ((Fields.get? fields "type").or (Fields.get? fields "conditionTypeId")).bind Json.string? =
          some typeId := by
      rintro typeId rfl
      obtain ⟨name, member, only⟩ := get?_of_pick? typePicked
      rw [only "type" (by simp), only "conditionTypeId" (by simp)]
      simp only [List.mem_cons, List.not_mem_nil, or_false] at member
      rcases member with rfl | rfl <;> rfl
    rw [ofParts?.eq_def] at parts
    split at parts
    · next eq =>
      obtain ⟨-, rfl⟩ : _ ∧ second = none := by simpa using eq
      have absent := get?_of_pick?_none parametersPicked (List.mem_singleton_self _)
      rw [Json.IsSpelledOut, absent] at h
      cases h
    · next typeId parameters eq =>
      obtain ⟨rfl, rfl⟩ : first = some (.string typeId) ∧ second = some (.object parameters) := by
        simpa using eq
      obtain rfl := Option.some.inj parts
      obtain ⟨name, member, only⟩ := get?_of_pick? parametersPicked
      obtain rfl := List.mem_singleton.1 member
      have found := only "parameterValues" member
      rw [if_pos rfl] at found
      rw [idsIn, typed typeId rfl, found]
      exact congrArg (typeId :: ·) (idsUnder_of_get? found)
    · simp at parts
  | null => cases h
  | bool _ => cases h
  | number _ => cases h
  | string _ => cases h
  | array _ => cases h

theorem idsIn_subset_of_mem_documents {c : Condition} {name : String} {document : Json}
    (h : document ∈ c.documents name) : idsIn document ⊆ idsInFields c.parameters := by
  rw [documents] at h
  split at h
  · next items found =>
    have under : idsIn (.array items) ⊆ idsInFields c.parameters := idsIn_subset_fields found
    rw [idsIn] at under
    exact List.Subset.trans (idsIn_subset_items h) under
  · next fields found =>
    obtain rfl := List.mem_singleton.1 h
    exact idsIn_subset_fields found
  · simp at h

theorem mem_typeIds {c : Condition} {id : String} :
    id ∈ c.typeIds ↔ id = c.typeId ∨ id ∈ idsInFields c.parameters := by
  rw [typeIds, IdSet.mem_ofList, List.mem_cons]

theorem YieldsSpelledOut.ids {c inner : Condition} (h : c.YieldsSpelledOut inner) :
    inner.typeId ∈ idsInFields c.parameters ∧
      idsInFields inner.parameters ⊆ idsInFields c.parameters := by
  obtain ⟨name, found, document, -, member, read, spelled⟩ := h
  have under := idsIn_subset_of_mem_documents member
  -- A document that is spelled out is collected as the condition that it is read as.
  rw [idsIn_of_isSpelledOut spelled read] at under
  exact List.cons_subset.1 under

/-- Along documents that are spelled out nothing is overlooked. -/
theorem ReachesSpelledOut.typeId_mem {c inner : Condition} (h : c.ReachesSpelledOut inner) :
    inner.typeId ∈ c.typeIds := by
  have ids : inner.typeId ∈ idsInFields c.parameters ∧
      idsInFields inner.parameters ⊆ idsInFields c.parameters := by
    induction h with
    | single step => exact step.ids
    | tail _ step ih => exact ⟨ih.2 step.ids.1, List.Subset.trans step.ids.2 ih.2⟩
  exact mem_typeIds.2 (.inr ids.1)

/-! ## Resolving -/

theorem resolve_eq_ok_iff {r : Registry} {c c' : Condition} :
    c.resolve r = .ok c' ↔ (∀ id ∈ c.typeIds, r.definitions.conditionTypes.contains id = true) ∧
      c' = { c with resolved := r.conditionType? c.typeId } := by
  rw [resolve]
  split
  · next id found =>
    have member := List.mem_of_find?_eq_some found
    have unknown := List.find?_some found
    constructor
    · intro h; cases h
    · intro h; simp [h.1 id member] at unknown
  · next none =>
    have all : ∀ id ∈ c.typeIds, r.definitions.conditionTypes.contains id = true := by
      simpa [IdSet.mem_toList] using none
    constructor
    · intro h; exact ⟨all, (Except.ok.inj h).symm⟩
    · rintro ⟨-, rfl⟩; rfl

/-- Resolving a condition vouches for all conditions inside it exactly if those whose documents are
not all spelled out have types that are collected anyway. -/
theorem resolve_vouches_iff {r : Registry} {c c' : Condition} (h : c.resolve r = .ok c') :
    (∀ inner, c'.Reaches inner →
      r.definitions.conditionTypes.contains inner.typeId = true ∧ inner.typeId ∈ c'.typeIds) ↔
    ∀ inner, c'.Reaches inner → ¬ c'.ReachesSpelledOut inner → inner.typeId ∈ c'.typeIds := by
  have registered : ∀ id ∈ c'.typeIds, r.definitions.conditionTypes.contains id = true := by
    obtain ⟨all, rfl⟩ := resolve_eq_ok_iff.1 h
    exact all
  constructor
  · intro vouched inner reached _
    exact (vouched inner reached).2
  · intro collected inner reached
    have member : inner.typeId ∈ c'.typeIds := by
      by_cases spelled : c'.ReachesSpelledOut inner
      · exact spelled.typeId_mem
      · exact collected inner reached spelled
    exact ⟨registered _ member, member⟩

/-- A conjunction over one condition whose document leaves its parameters out. -/
def abridged : Condition where
  typeId := "andCondition"
  parameters := [("subConditions", .array [.object [("type", .string "missing")]])]

/-- A registry that knows the conjunction alone. -/
def conjunctionOnly : Registry :=
  (({} : Registry).registerConditionType { id := "andCondition" }).value

theorem abridged_resolve : abridged.resolve conjunctionOnly =
    .ok { abridged with resolved := conjunctionOnly.conditionType? "andCondition" } :=
  resolve_eq_ok_iff.2 ⟨by decide, rfl⟩

theorem abridged_reaches (resolved : Option ClassifiedType) :
    Reaches { abridged with resolved } { typeId := "missing" } :=
  .single (.subConditions rfl (List.mem_singleton_self _))

/-- An abridged document resolves although the condition that it is read as has an unknown type. -/
theorem resolve_overlooks_abridged :
    ∃ c', abridged.resolve conjunctionOnly = .ok c' ∧ c'.Reaches { typeId := "missing" } ∧
      conjunctionOnly.definitions.conditionTypes.contains "missing" = false ∧
      "missing" ∉ c'.typeIds :=
  ⟨_, abridged_resolve, abridged_reaches _, by decide, by decide⟩

theorem resolve_vouches_abridged :
    ∃ c', abridged.resolve conjunctionOnly = .ok c' ∧
      ¬ ∀ inner, c'.Reaches inner → ¬ c'.ReachesSpelledOut inner → inner.typeId ∈ c'.typeIds := by
  refine ⟨_, abridged_resolve, fun collected => ?_⟩
  have vouched := (resolve_vouches_iff abridged_resolve).2 collected _ (abridged_reaches _)
  exact absurd vouched.1 (by decide)

end Condition

end Clickstream
