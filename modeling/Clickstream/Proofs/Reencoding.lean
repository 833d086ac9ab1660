import Clickstream.Proofs.GoalItems
import Clickstream.Vocabulary

/-! # Documents that are written again

A document is read in many forms: fields by other names or by position, parts left out or `null`,
fields that nobody knows, members of a set more than once. What was read is written in one form, and
that form reads back as what was read. So reading and writing once more changes nothing.
-/

namespace Clickstream

/-- Whatever a document is read as, writing that and reading it again gives the same. -/
def Rereads {α : Type} (read : Document → Option α) (write : α → Json) : Prop :=
  ∀ d a, read d = some a → ∀ layout : Layout, read (layout.document (write a)) = some a

/-- It is enough that what is written loses nothing that reading could give. -/
theorem rereads_of_kept {α : Type} {read : Document → Option α} {write : α → Json} {kept : α → α}
    (written : ∀ (layout : Layout) a, read (layout.document (write a)) = some (kept a))
    (fixed : ∀ d a, read d = some a → kept a = a) : Rereads read write := by
  intro d a h layout
  rw [written, fixed d a h]

namespace Tag

variable {t : Tag}

/-- The tag as a document tells of it. -/
def kept (t : Tag) : Tag := { t with moduleId := none }

theorem ofDocument?_toJson {layout : Layout} :
    ofDocument? (layout.document t.toJson) = some t.kept := by
  have written : t.toJson = .object (Record.written
      [["id"], ["nameKey"], ["descriptionKey"], ["parent", "parentId"], ["rank"], ["hidden"]]
      [some (.string t.id), t.nameKey.map .string, t.descriptionKey.map .string,
        t.parentId.map .string, some (.number (.double t.rank)), some (.bool t.hidden)]) := by
    simp [toJson, Record.written, Json.optionalField]
  rw [ofDocument?, written, Layout.record?_written (by decide) rfl]
  simp [kept]

theorem kept_of_ofDocument? {d : Document} (h : ofDocument? d = some t) : t.kept = t := by
  simp only [ofDocument?, Option.pure_def, Option.bind_eq_bind, Option.bind_eq_some_iff] at h
  obtain ⟨record, _, h⟩ := h
  split at h
  · simp only [Option.bind_eq_some_iff, Option.some.injEq] at h
    obtain ⟨_, _, _, _, _, _, _, _, _, _, _, _, rfl⟩ := h
    rfl
  · cases h

end Tag

/-! ## Declared parameters -/

namespace Json

/-- A value that is not `null`. -/
def present? (value : Json) : Option Json := if value.isNull then none else some value

end Json

namespace Document

theorem optional_value? {d : Document} :
    optional value? (some d) = d.value?.map Json.present? := by
  cases d <;> simp [optional, value?, Json.present?, Json.isNull, Function.comp_def]

/-- A free-form part that was read is no `null` and in canonical form. -/
theorem present?_of_optional {field : Option Document} {part : Option Json}
    (h : optional value? field = some part) :
    part.bind (fun value => value.canonical.present?) = part := by
  cases field with
  | none => cases h; rfl
  | some d =>
    rw [optional_value?] at h
    obtain ⟨value, read, rfl⟩ := Option.map_eq_some_iff.1 h
    by_cases null : value.isNull = true
    · simp [Json.present?, null]
    · simp [Json.present?, null, canonical_of_value? d value read]

end Document

namespace Parameter

variable {p : Parameter}

/-- The parameter as a document tells of it. -/
def kept (p : Parameter) : Parameter :=
  { p with defaultValue := p.defaultValue.bind fun value => value.canonical.present? }

theorem ofDocument?_toJson {layout : Layout} :
    ofDocument? (layout.document p.toJson) = some p.kept := by
  have written : p.toJson = .object (Record.written
      [["id"], ["type"], ["multivalued"], ["defaultValue"]]
      [some (.string p.id), some (.string p.valueType), some (.bool p.multivalued),
        p.defaultValue]) := by
    simp [toJson, Record.written, Json.optionalField]
  have default : Document.optional Document.value? (p.defaultValue.map layout.document) =
      some p.kept.defaultValue := by
    rw [kept]
    cases p.defaultValue with
    | none => rfl
    | some value => rw [Option.map_some, Document.optional_value?, Layout.value?_document]; rfl
  rw [ofDocument?, written, Layout.record?_written (by decide) rfl]
  simp [default, kept]

theorem kept_of_ofDocument? {d : Document} (h : ofDocument? d = some p) : p.kept = p := by
  simp only [ofDocument?, Option.pure_def, Option.bind_eq_bind, Option.bind_eq_some_iff] at h
  obtain ⟨record, _, h⟩ := h
  split at h
  · simp only [Option.bind_eq_some_iff, Option.some.injEq] at h
    obtain ⟨_, _, _, _, _, _, default, read, rfl⟩ := h
    simp only [kept, Document.present?_of_optional read]
  · cases h

/-- Lists of parameters, as types hold them. -/
theorem list?_toJson {layout : Layout} {parameters : List Parameter} :
    Document.list? ofDocument? (layout.document (.array (parameters.map toJson))) =
      some (parameters.map kept) := by
  rw [Layout.document_array, List.map_map]
  exact Document.list?_map fun _ => ofDocument?_toJson

theorem map_kept_of_list? {field : Option Document} {parameters : List Parameter}
    (h : Document.defaulting [] (Document.list? ofDocument?) field = some parameters) :
    parameters.map kept = parameters :=
  Document.map_eq_of_defaulting_list? (fun _ _ => kept_of_ofDocument?) h

end Parameter

/-! ## Types -/

theorem Category.ofText?_text {c : Category} : ofText? c.text = some c := by cases c <;> rfl

theorem BooleanOperator.ofText?_text {o : BooleanOperator} : ofText? o.text = some o := by
  cases o <;> rfl

/-- Words are written bare. -/
theorem Document.optional_word {α : Type} {layout : Layout} {read : String → Option α}
    {text : α → String} (found : ∀ a, read (text a) = some a) {part : Option α} :
    optional (word? read) (part.map (layout.document ∘ fun a => Json.string (text a))) =
      some part := by
  have each : ∀ a, word? read ((layout.document ∘ fun a => Json.string (text a)) a) =
      some (id a) := by
    intro a
    rw [Function.comp, Layout.document_string]
    exact found a
  rw [optional_map rfl each, Option.map_id]
  rfl

namespace ConditionType

variable {t : ConditionType}

/-- The type as a document tells of it. -/
def kept (t : ConditionType) : ConditionType :=
  { t with parameters := t.parameters.map Parameter.kept, moduleId := none }

theorem ofDocument?_toJson {layout : Layout} :
    ofDocument? (layout.document t.toJson) = some t.kept := by
  have written : t.toJson = .object (Record.written
      [["id"], ["nameKey"], ["descriptionKey"], ["tags"], ["category"], ["conditionEvaluator"],
        ["operator"], ["parameters"]]
      [some (.string t.id), t.nameKey.map .string, t.descriptionKey.map .string,
        some (Json.ofStrings t.tagIds.toList), t.declaredCategory.map fun c => .string c.text,
        t.declaredEvaluator.map .string, t.operator.map fun o => .string o.text,
        some (.array (t.parameters.map Parameter.toJson))]) := by
    simp [toJson, Record.written, Json.optionalField]
  rw [ofDocument?, written, Layout.record?_written (by decide) rfl]
  simp [Document.optional_word fun _ => Category.ofText?_text,
    Document.optional_word fun _ => BooleanOperator.ofText?_text, Parameter.list?_toJson, kept,
    -Layout.document_array]

theorem kept_of_ofDocument? {d : Document} (h : ofDocument? d = some t) : t.kept = t := by
  simp only [ofDocument?, Option.pure_def, Option.bind_eq_bind, Option.bind_eq_some_iff] at h
  obtain ⟨record, _, h⟩ := h
  split at h
  · simp only [Option.bind_eq_some_iff, Option.some.injEq] at h
    obtain ⟨_, _, _, _, _, _, _, _, _, _, _, _, _, _, parameters, read, rfl⟩ := h
    simp only [kept, Parameter.map_kept_of_list? read]
  · cases h

end ConditionType

namespace ActionType

variable {t : ActionType}

/-- The type as a document tells of it. -/
def kept (t : ActionType) : ActionType :=
  { t with parameters := t.parameters.map Parameter.kept, moduleId := none }

theorem ofDocument?_toJson {layout : Layout} :
    ofDocument? (layout.document t.toJson) = some t.kept := by
  have written : t.toJson = .object (Record.written
      [["id"], ["nameKey"], ["tags"], ["actionExecutor"], ["parameters"]]
      [some (.string t.id), t.nameKey.map .string, some (Json.ofStrings t.tagIds.toList),
        t.executor.map .string, some (.array (t.parameters.map Parameter.toJson))]) := by
    simp [toJson, Record.written, Json.optionalField]
  rw [ofDocument?, written, Layout.record?_written (by decide) rfl]
  simp [Parameter.list?_toJson, kept, -Layout.document_array]

theorem kept_of_ofDocument? {d : Document} (h : ofDocument? d = some t) : t.kept = t := by
  simp only [ofDocument?, Option.pure_def, Option.bind_eq_bind, Option.bind_eq_some_iff] at h
  obtain ⟨record, _, h⟩ := h
  split at h
  · simp only [Option.bind_eq_some_iff, Option.some.injEq] at h
    obtain ⟨_, _, _, _, _, _, _, _, parameters, read, rfl⟩ := h
    simp only [kept, Parameter.map_kept_of_list? read]
  · cases h

end ActionType

namespace ValueType

variable {t : ValueType}

/-- The type as a document tells of it. -/
def kept (t : ValueType) : ValueType := { t with moduleId := none }

theorem ofDocument?_toJson {layout : Layout} :
    ofDocument? (layout.document t.toJson) = some t.kept := by
  have written : t.toJson = .object (Record.written [["id"], ["nameKey"], ["tags"]]
      [some (.string t.id), t.nameKey.map .string, some (Json.ofStrings t.tagIds.toList)]) := by
    simp [toJson, Record.written, Json.optionalField]
  rw [ofDocument?, written, Layout.record?_written (by decide) rfl]
  simp [kept]

theorem kept_of_ofDocument? {d : Document} (h : ofDocument? d = some t) : t.kept = t := by
  simp only [ofDocument?, Option.pure_def, Option.bind_eq_bind, Option.bind_eq_some_iff] at h
  obtain ⟨record, _, h⟩ := h
  split at h
  · simp only [Option.bind_eq_some_iff, Option.some.injEq] at h
    obtain ⟨_, _, _, _, _, _, rfl⟩ := h
    rfl
  · cases h

end ValueType

namespace PropertyType

variable {t : PropertyType}

/-- The type as a document tells of it. -/
def kept (t : PropertyType) : PropertyType := { t with moduleId := none }

theorem ofDocument?_toJson {layout : Layout} :
    ofDocument? (layout.document t.toJson) = some t.kept := by
  have written : t.toJson = .object (Record.written
      [["id"], ["nameKey"], ["type"], ["groupId"], ["rank"], ["tags"], ["automaticMappingsFrom"]]
      [some (.string t.id), t.nameKey.map .string, some (.string t.valueTypeId),
        some (.string t.groupId), some (.number (.double t.rank)),
        some (Json.ofStrings t.tagIds.toList), some (Json.ofStrings t.mappingsFrom)]) := by
    simp [toJson, Record.written, Json.optionalField]
  rw [ofDocument?, written, Layout.record?_written (by decide) rfl]
  simp [kept]

theorem kept_of_ofDocument? {d : Document} (h : ofDocument? d = some t) : t.kept = t := by
  simp only [ofDocument?, Option.pure_def, Option.bind_eq_bind, Option.bind_eq_some_iff] at h
  obtain ⟨record, _, h⟩ := h
  split at h
  · simp only [Option.bind_eq_some_iff, Option.some.injEq] at h
    obtain ⟨_, _, _, _, _, _, _, _, _, _, _, _, _, _, rfl⟩ := h
    rfl
  · cases h

end PropertyType

namespace PropertyGroup

variable {g : PropertyGroup}

/-- The group as a document tells of it. -/
def kept (g : PropertyGroup) : PropertyGroup := { g with moduleId := none }

theorem ofDocument?_toJson {layout : Layout} :
    ofDocument? (layout.document g.toJson) = some g.kept := by
  have written : g.toJson = .object (Record.written [["id"], ["rank"]]
      [some (.string g.id), some (.number (.double g.rank))]) := rfl
  rw [ofDocument?, written, Layout.record?_written (by decide) rfl]
  simp [kept]

theorem kept_of_ofDocument? {d : Document} (h : ofDocument? d = some g) : g.kept = g := by
  simp only [ofDocument?, Option.pure_def, Option.bind_eq_bind, Option.bind_eq_some_iff] at h
  obtain ⟨record, _, h⟩ := h
  split at h
  · simp only [Option.bind_eq_some_iff, Option.some.injEq] at h
    obtain ⟨_, _, _, _, rfl⟩ := h
    rfl
  · cases h

end PropertyGroup

/-! ## Actions, rules and conditions inside values -/

theorem Action.kept_of_ofDocument? {a : Action} {d : Document} (h : ofDocument? d = some a) :
    a.kept = a := by
  simp only [ofDocument?, Option.pure_def, Option.bind_eq_bind, Option.bind_eq_some_iff] at h
  obtain ⟨record, _, h⟩ := h
  split at h
  · next field _ =>
    simp only [Option.bind_eq_some_iff, Option.some.injEq] at h
    obtain ⟨_, _, parameters, read, rfl⟩ := h
    cases field with
    | none => cases read; rfl
    | some d => simp only [kept, Document.ordered_of_fields? read]
  · cases h

theorem Rule.kept_of_ofDocument? {r : Rule} {d : Document} (h : ofDocument? d = some r) :
    r.kept = r := by
  simp only [ofDocument?, Option.pure_def, Option.bind_eq_bind, Option.bind_eq_some_iff] at h
  obtain ⟨record, _, h⟩ := h
  split at h
  · next field _ _ =>
    simp only [Option.bind_eq_some_iff, Option.some.injEq] at h
    obtain ⟨_, _, condition, one, actions, listed, rfl⟩ := h
    have same : condition.kept = condition := by
      cases field with
      | none => cases one
      | some d => exact Condition.kept_of_ofDocument? one
    have all : actions.map Action.kept = actions :=
      Document.map_eq_of_defaulting_list? (fun _ _ => Action.kept_of_ofDocument?) listed
    simp only [kept, same, all]
  · cases h

namespace Condition

private theorem parameters_of_ofParts? {record : List (Option Json)} {c : Condition}
    (h : ofParts? record = some c) :
    c.resolved = none ∧ (c.parameters = [] ∨ some (.object c.parameters) ∈ record) := by
  rw [ofParts?.eq_def] at h
  split at h
  · cases h; exact ⟨rfl, .inl rfl⟩
  · cases h; exact ⟨rfl, .inr (by simp)⟩
  · cases h

private theorem mem_of_ofFields? {names : List (List String)} {fields : Fields Json}
    {record : List (Option Json)} {value : Json} (h : Record.ofFields? names fields = some record)
    (member : some value ∈ record) : ∃ name, (name, value) ∈ fields := by
  rw [Record.ofFields?] at h
  induction names generalizing record with
  | nil => cases h; cases member
  | cons group rest ih =>
    rw [List.mapM_cons] at h
    simp only [Option.pure_def, Option.bind_eq_bind, Option.bind_eq_some_iff,
      Option.some.injEq] at h
    obtain ⟨part, picked, others, later, rfl⟩ := h
    rcases List.mem_cons.1 member with rfl | member
    · rw [Record.pick?] at picked
      split at picked
      · cases picked
      · next field found =>
        cases picked
        have listed : field ∈ fields.filter (fun field => group.contains field.1) :=
          found ▸ List.mem_singleton_self field
        exact ⟨field.1, (List.mem_filter.1 listed).1⟩
      · cases picked
    · exact ih later member

/-- A condition that was read from a value is as an item keeps it. -/
theorem kept_of_ofJson? {value : Json} {c : Condition} (canonical : value.canonical = value)
    (h : ofJson? value = some c) : c.kept = c := by
  have fixed : ∀ record, ofParts? record = some c →
      (some (.object c.parameters) ∈ record →
        (Json.object c.parameters).canonical = .object c.parameters) → c.kept = c := by
    intro record read inside
    obtain ⟨unresolved, origin⟩ := parameters_of_ofParts? read
    have ordered : Json.ordered c.parameters = c.parameters := by
      rcases origin with empty | member
      · rw [empty]; rfl
      · exact Json.object.inj (inside member)
    obtain ⟨typeId, parameters, resolved⟩ := c
    cases unresolved
    exact congrArg (Condition.mk typeId · none) ordered
  cases value with
  | array items =>
    obtain ⟨record, found, read⟩ := Option.bind_eq_some_iff.1 h
    refine fixed record read fun member => ?_
    rw [Record.ofItems?] at found
    split at found
    · cases found
      exact Json.canonical_of_mem_items canonical (by simpa using member)
    · cases found
  | object fields =>
    obtain ⟨record, found, read⟩ := Option.bind_eq_some_iff.1 h
    refine fixed record read fun member => ?_
    obtain ⟨name, listed⟩ := mem_of_ofFields? found member
    exact Json.canonical_of_mem_fields canonical listed
  | null | bool | number | string => cases h

end Condition

/-- Every document of a declared type, a condition, a goal or a rule, in whatever form it was read,
is written as one that reads back the same, with the fields in either order. So are conditions that
stand among the parameters of another. -/
theorem rereads_documents :
    Rereads Tag.ofDocument? Tag.toJson ∧
    Rereads ConditionType.ofDocument? ConditionType.toJson ∧
    Rereads ActionType.ofDocument? ActionType.toJson ∧
    Rereads ValueType.ofDocument? ValueType.toJson ∧
    Rereads PropertyType.ofDocument? PropertyType.toJson ∧
    Rereads PropertyGroup.ofDocument? PropertyGroup.toJson ∧
    Rereads Condition.ofDocument? Condition.toJson ∧
    Rereads Goal.ofDocument? Goal.toJson ∧
    Rereads Rule.ofDocument? Rule.toJson ∧
    ∀ value c, Json.canonical value = value → Condition.ofJson? value = some c →
      Condition.ofJson? c.toValue = some c := by
  refine ⟨rereads_of_kept (fun _ _ => Tag.ofDocument?_toJson) fun _ _ => Tag.kept_of_ofDocument?,
    rereads_of_kept (fun _ _ => ConditionType.ofDocument?_toJson)
      fun _ _ => ConditionType.kept_of_ofDocument?,
    rereads_of_kept (fun _ _ => ActionType.ofDocument?_toJson)
      fun _ _ => ActionType.kept_of_ofDocument?,
    rereads_of_kept (fun _ _ => ValueType.ofDocument?_toJson)
      fun _ _ => ValueType.kept_of_ofDocument?,
    rereads_of_kept (fun _ _ => PropertyType.ofDocument?_toJson)
      fun _ _ => PropertyType.kept_of_ofDocument?,
    rereads_of_kept (fun _ _ => PropertyGroup.ofDocument?_toJson)
      fun _ _ => PropertyGroup.kept_of_ofDocument?,
    rereads_of_kept (fun _ _ => Condition.ofDocument?_toJson)
      fun _ _ => Condition.kept_of_ofDocument?,
    rereads_of_kept (fun _ _ => Goal.ofDocument?_toJson) fun _ _ => Goal.kept_of_ofDocument?,
    rereads_of_kept (fun _ _ => Rule.ofDocument?_toJson) fun _ _ => Rule.kept_of_ofDocument?, ?_⟩
  intro value c canonical read
  rw [Condition.ofJson?_toValue, Condition.kept_of_ofJson? canonical read]

/-- A tag by position with a name left out, and a type with a tag named twice and a field that no type
has. -/
theorem rereads_documents_loose :
    (∃ t, Tag.ofDocument? (.array [.string "a", .null]) = some t ∧ t.id = "a" ∧
      ∀ layout : Layout, Tag.ofDocument? (layout.document t.toJson) = some t) ∧
    ∃ v, ValueType.ofDocument? (.object [("tags", .array [.string "b", .string "b"]),
        ("unknown", .unreadable), ("id", .string "c")]) = some v ∧ v.tagIds.toList = ["b"] ∧
      ∀ layout : Layout, ValueType.ofDocument? (layout.document v.toJson) = some v := by
  obtain ⟨tags, -, -, values, -⟩ := rereads_documents
  have tag : (Tag.ofDocument? (.array [.string "a", .null])).map Tag.id = some "a" := by
    decide +kernel
  have value : (ValueType.ofDocument? (.object [("tags", .array [.string "b", .string "b"]),
      ("unknown", .unreadable), ("id", .string "c")])).map (·.tagIds.toList) = some ["b"] := by
    decide +kernel
  obtain ⟨t, isTag, id⟩ := Option.map_eq_some_iff.1 tag
  obtain ⟨v, isValue, once⟩ := Option.map_eq_some_iff.1 value
  exact ⟨⟨t, isTag, id, tags _ _ isTag⟩, v, isValue, once, values _ _ isValue⟩

end Clickstream
