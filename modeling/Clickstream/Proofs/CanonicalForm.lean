import Clickstream.Document
import Clickstream.Proofs.Tables

/-! # Values in canonical form

A value is in canonical form if the fields of each of its objects are in the order of their names.
Every value read from a text is, and a value that is written and read back is put in this form and
not changed otherwise.
-/

namespace Clickstream

namespace Fields

variable {V W : Type} {fields : Fields V} {name : String} {value : V} {f : V → W}

/-- Change every value of a list of pairs. -/
def mapValues (f : V → W) (fields : Fields V) : Fields W :=
  fields.map fun pair => (pair.1, f pair.2)

theorem mapValues_insert :
    (fields.insert name value).mapValues f = (fields.mapValues f).insert name (f value) := by
  induction fields with
  | nil => rfl
  | cons head rest ih =>
    have unfolded : mapValues f (head :: rest) = (head.1, f head.2) :: mapValues f rest := rfl
    rw [unfolded, insert, insert]
    split
    · rfl
    · split
      · rfl
      · exact congrArg ((head.1, f head.2) :: ·) ih

/-- The order depends on the names alone. -/
theorem mapValues_sorted : fields.sorted.mapValues f = (fields.mapValues f).sorted := by
  -- Sorting puts the pairs in one by one, so the claim is made for all that was put in so far.
  have step : ∀ acc : Fields V,
      mapValues f (fields.foldl (fun acc pair => acc.insert pair.1 pair.2) acc) =
        (fields.mapValues f).foldl (fun acc pair => acc.insert pair.1 pair.2)
          (acc.mapValues f) := by
    induction fields with
    | nil => exact fun _ => rfl
    | cons head rest ih =>
      intro acc
      rw [List.foldl_cons, ih, mapValues_insert]
      rfl
  exact step []

end Fields

namespace Json

theorem canonicalFields_eq_map {fields : Fields Json} :
    canonicalFields fields = fields.mapValues canonical := by
  induction fields with
  | nil => rfl
  | cons head rest ih => rw [canonicalFields, ih]; rfl

theorem canonicalItems_eq_map {items : List Json} : canonicalItems items = items.map canonical := by
  induction items with
  | nil => rfl
  | cons item rest ih => rw [canonicalItems, ih, List.map_cons]

mutual

@[simp] theorem canonical_canonical : ∀ value : Json, value.canonical.canonical = value.canonical
  | .null | .bool _ | .number _ | .string _ => by simp only [canonical]
  | .array items => by simp only [canonical, canonicalItems_canonicalItems items]
  | .object fields => by
    have inner := canonicalFields_canonicalFields fields
    simp only [canonicalFields_eq_map] at inner
    simp only [canonical, canonicalFields_eq_map, Fields.mapValues_sorted, inner,
      Fields.ascending_sorted.sorted_eq]

theorem canonicalItems_canonicalItems : ∀ items : List Json,
    canonicalItems (canonicalItems items) = canonicalItems items
  | [] => rfl
  | item :: rest => by
    simp only [canonicalItems, canonical_canonical item, canonicalItems_canonicalItems rest]

theorem canonicalFields_canonicalFields : ∀ fields : List (String × Json),
    canonicalFields (canonicalFields fields) = canonicalFields fields
  | [] => rfl
  | (name, value) :: rest => by
    simp only [canonicalFields, canonical_canonical value, canonicalFields_canonicalFields rest]

end

/-- The fields of an object in canonical form. -/
def ordered (fields : Fields Json) : Fields Json := Fields.sorted (canonicalFields fields)

theorem ordered_ordered {fields : Fields Json} : ordered (ordered fields) = ordered fields :=
  Json.object.inj (canonical_canonical (.object fields))

/-- Fields in the order of their names stay where they are. -/
theorem ordered_eq_mapValues {fields : Fields Json} (h : fields.Ascending) :
    ordered fields = fields.mapValues canonical := by
  rw [ordered, canonicalFields_eq_map]
  exact Fields.Ascending.sorted_eq (h.mapValues fun _ => canonical)

theorem ascending_of_ordered {fields : Fields Json} (h : ordered fields = fields) :
    fields.Ascending :=
  h ▸ Fields.ascending_sorted

theorem canonical_of_mem_items {items : List Json} (h : (array items).canonical = array items)
    {item : Json} (member : item ∈ items) : item.canonical = item := by
  have same : items.map canonical = items.map id := by
    rw [List.map_id, ← canonicalItems_eq_map]
    rw [canonical] at h
    exact Json.array.inj h
  exact List.map_inj_left.1 same item member

theorem canonical_of_mem_fields {fields : Fields Json} (h : (object fields).canonical = object fields)
    {name : String} {value : Json} (member : (name, value) ∈ fields) : value.canonical = value := by
  rw [canonical] at h
  have isOrdered : ordered fields = fields := Json.object.inj h
  have same : fields.mapValues canonical = fields.map id := by
    rw [List.map_id, ← ordered_eq_mapValues (ascending_of_ordered isOrdered), isOrdered]
  exact congrArg Prod.snd (List.map_inj_left.1 same (name, value) member)

/-- The document of a condition or an action, a type with parameters. -/
theorem canonical_typed {typeId : String} {parameters : Fields Json} :
    (object [("type", string typeId), ("parameterValues", object parameters)]).canonical =
      object [("parameterValues", object (ordered parameters)), ("type", string typeId)] := by
  simp only [canonical, canonicalFields, ordered, Fields.sorted, Fields.insert, List.foldl_cons,
    List.foldl_nil, String.reduceEq, String.reduceLT, ↓reduceIte]

end Json

namespace Document

theorem ofFields_eq_map {fields : Fields Json} : ofFields fields = fields.mapValues ofJson := by
  induction fields with
  | nil => rfl
  | cons head rest ih => rw [ofFields, ih]; rfl

theorem ofItems_eq_map {items : List Json} : ofItems items = items.map ofJson := by
  induction items with
  | nil => rfl
  | cons item rest ih => rw [ofItems, ih, List.map_cons]

mutual

/-- A value that is written reads back in canonical form. -/
theorem value?_ofJson : ∀ value : Json, (ofJson value).value? = some value.canonical
  | .null | .bool _ | .number _ | .string _ => by simp only [ofJson, value?, Json.canonical]
  | .array items => by
    simp only [ofJson, value?, values?_ofItems items, Option.map_some, Json.canonical]
  | .object fields => by
    simp only [ofJson, value?, fieldValues?_ofFields fields, Option.map_some, Json.canonical]

theorem values?_ofItems : ∀ items : List Json,
    values? (ofItems items) = some (Json.canonicalItems items)
  | [] => rfl
  | item :: rest => by
    simp only [ofItems, values?, value?_ofJson item, values?_ofItems rest, Json.canonicalItems]
    rfl

theorem fieldValues?_ofFields : ∀ fields : List (String × Json),
    fieldValues? (ofFields fields) = some (Json.canonicalFields fields)
  | [] => rfl
  | (name, value) :: rest => by
    simp only [ofFields, fieldValues?, value?_ofJson value, fieldValues?_ofFields rest,
      Json.canonicalFields]
    rfl

end

mutual

/-- Every value that is read is in canonical form. -/
theorem canonical_of_value? : ∀ (d : Document) (value : Json), d.value? = some value →
    value.canonical = value
  | .null, _, h | .bool _, _, h | .number _, _, h | .string _, _, h => by
    simp only [value?, Option.some.injEq] at h
    subst h
    simp only [Json.canonical]
  | .array items, value, h => by
    rw [value?] at h
    obtain ⟨values, read, rfl⟩ := Option.map_eq_some_iff.1 h
    simp only [Json.canonical, canonicalItems_of_values? items values read]
  | .object fields, value, h => by
    rw [value?] at h
    obtain ⟨values, read, rfl⟩ := Option.map_eq_some_iff.1 h
    have inner := canonicalFields_of_fieldValues? fields values read
    rw [Json.canonicalFields_eq_map] at inner
    simp only [Json.canonical, Json.canonicalFields_eq_map, Fields.mapValues_sorted, inner,
      Fields.ascending_sorted.sorted_eq]
  | .unreadable, _, h => by simp only [value?, reduceCtorEq] at h

theorem canonicalItems_of_values? : ∀ (items : List Document) (values : List Json),
    values? items = some values → Json.canonicalItems values = values
  | [], _, h => by cases h; rfl
  | item :: rest, _, h => by
    simp only [values?, Option.bind_eq_bind, Option.pure_def, Option.bind_eq_some_iff,
      Option.some.injEq] at h
    obtain ⟨value, one, values, others, rfl⟩ := h
    simp only [Json.canonicalItems, canonical_of_value? item value one,
      canonicalItems_of_values? rest values others]

theorem canonicalFields_of_fieldValues? : ∀ (fields : List (String × Document))
    (values : List (String × Json)), fieldValues? fields = some values →
    Json.canonicalFields values = values
  | [], _, h => by cases h; rfl
  | (name, d) :: rest, _, h => by
    simp only [fieldValues?, Option.bind_eq_bind, Option.pure_def, Option.bind_eq_some_iff,
      Option.some.injEq] at h
    obtain ⟨value, one, values, others, rfl⟩ := h
    simp only [Json.canonicalFields, canonical_of_value? d value one,
      canonicalFields_of_fieldValues? rest values others]

end

/-- Free-form fields that are read are in canonical form. -/
theorem ordered_of_fields? {d : Document} {fields : Fields Json} (h : d.fields? = some fields) :
    Json.ordered fields = fields := by
  obtain ⟨value, read, isObject⟩ := Option.bind_eq_some_iff.1 h
  cases value with
  | object fields' =>
    cases isObject
    exact Json.object.inj (canonical_of_value? d _ read)
  | null | bool | number | string | array => cases isObject

end Document

end Clickstream
