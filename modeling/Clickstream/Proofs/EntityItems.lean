import Clickstream.Entity
import Clickstream.Proofs.Records

/-! # Items of records

The item of a record holds its fields in canonical form and none that is named like the id or the
type. Written flat, with its id and type beside the fields of the body, an item reads back as it
was. The record itself is read from the body with the id put back among its fields, so it finds the
fields that were written.
-/

namespace Clickstream

namespace Document

/-- The values of fields in another order are the same in another order. -/
theorem exists_fieldValues?_of_perm {fields others : List (String × Document)}
    {values : List (String × Json)} (same : fields.Perm others)
    (h : fieldValues? others = some values) :
    ∃ values', fieldValues? fields = some values' ∧ values'.Perm values := by
  induction same generalizing values with
  | nil => exact ⟨values, h, List.Perm.refl _⟩
  | cons field _ ih =>
    simp only [fieldValues?, Option.pure_def, Option.bind_eq_bind, Option.bind_eq_some_iff,
      Option.some.injEq] at h
    obtain ⟨value, one, rest, others, rfl⟩ := h
    obtain ⟨rest', others', perm⟩ := ih others
    exact ⟨(field.1, value) :: rest', by simp [fieldValues?, one, others'], perm.cons _⟩
  | swap a b rest =>
    simp only [fieldValues?, Option.pure_def, Option.bind_eq_bind, Option.bind_eq_some_iff,
      Option.some.injEq] at h
    obtain ⟨first, one, _, ⟨second, two, rest, others, rfl⟩, rfl⟩ := h
    exact ⟨(b.1, second) :: (a.1, first) :: rest, by simp [fieldValues?, one, two, others],
      List.Perm.swap _ _ _⟩
  | trans _ _ ih ih' =>
    obtain ⟨middle, between, perm'⟩ := ih' h
    obtain ⟨values', found, perm⟩ := ih between
    exact ⟨values', found, perm.trans perm'⟩

end Document

namespace Item

variable {layout : Layout} {item : Item}

theorem fieldValues?_mapValues {fields : Fields Json} :
    Document.fieldValues? (fields.mapValues layout.document) =
      some (fields.mapValues Json.canonical) := by
  induction fields with
  | nil => rfl
  | cons field rest ih =>
    have first : (Fields.mapValues layout.document (field :: rest)) =
        (field.1, layout.document field.2) :: Fields.mapValues layout.document rest := rfl
    rw [first, Document.fieldValues?, Layout.value?_document, ih]
    rfl

theorem ne_reserved {name : String} :
    isReserved name = false ↔ name ≠ "itemId" ∧ name ≠ "itemType" := by
  simp [isReserved]

/-- The id and the type of an item as the fields that stand before its body. -/
def texts (item : Item) : Fields Json :=
  Record.written [["itemId"], ["itemType"]] [some (.string item.id), some (.string item.type)]

private theorem nodup_flat (ascending : item.body.Ascending)
    (unreserved : ∀ field ∈ item.body, isReserved field.1 = false) :
    ((item.texts ++ item.body).map Prod.fst).Nodup := by
  have names : (item.texts ++ item.body).map Prod.fst =
      "itemId" :: "itemType" :: item.body.map Prod.fst := rfl
  have absent : ∀ name ∈ item.body.map Prod.fst, isReserved name = false := by
    intro name member
    obtain ⟨field, isField, rfl⟩ := List.mem_map.1 member
    exact unreserved field isField
  rw [names, List.nodup_cons, List.nodup_cons, List.mem_cons]
  refine ⟨?_, fun listed => (ne_reserved.1 (absent _ listed)).2 rfl,
    Fields.nodup_names ascending⟩
  rintro (same | listed)
  · simp at same
  · exact (ne_reserved.1 (absent _ listed)).1 rfl

/-- An item that is written flat reads back. -/
theorem ofDocument?_toJson (layout : Layout) (ordered : Json.ordered item.body = item.body)
    (unreserved : ∀ field ∈ item.body, isReserved field.1 = false) :
    ofDocument? (layout.document item.toJson) = some item := by
  have ascending := Json.ascending_of_ordered ordered
  have flat : item.toJson = .object (item.texts ++ item.body) := rfl
  obtain ⟨laidOut, isObject, perm⟩ := layout.document_object (nodup_flat ascending unreserved)
  have found : Record.ofFields? [["itemId"], ["itemType"]] laidOut =
      some [some (.string item.id), some (.string item.type)] := by
    rw [Record.ofFields?_perm perm, Record.ofFields?_mapValues,
      Record.ofFields?_perm List.perm_append_comm, Record.ofFields?_append, texts,
      Record.ofFields?_written (by decide) rfl]
    · simp
    · intro field member group listed
      obtain ⟨noId, noType⟩ := ne_reserved.1 (unreserved field member)
      simp only [List.mem_cons, List.not_mem_nil, or_false] at listed
      rcases listed with rfl | rfl <;> simpa
  have rest : (laidOut.filter fun field => field.1 ≠ "itemId" ∧ field.1 ≠ "itemType").Perm
      (item.body.mapValues layout.document) := by
    have kept : (item.body.mapValues layout.document).filter
        (fun field => field.1 ≠ "itemId" ∧ field.1 ≠ "itemType") =
          item.body.mapValues layout.document := by
      rw [List.filter_eq_self]
      intro field member
      obtain ⟨original, isField, rfl⟩ := List.mem_map.1 member
      simpa using ne_reserved.1 (unreserved original isField)
    rw [← kept]
    exact perm.filter _
  obtain ⟨values, read, same⟩ := Document.exists_fieldValues?_of_perm rest fieldValues?_mapValues
  have body : Fields.sorted values = item.body := by
    rw [← Json.ordered_eq_mapValues ascending, ordered] at same
    have nodup := (same.map Prod.fst).nodup_iff.2 (Fields.nodup_names ascending)
    exact Fields.ascending_sorted.eq_of_perm ascending ((Fields.perm_sorted nodup).trans same)
  rw [flat, isObject, ofDocument?, found, read]
  simp [body]

/-- Fields of a record go into its item if none of its names is that of the id or the type. -/
theorem filter_written {names : List (List String)} {parts : List (Option Json)}
    (apart : Record.Apart names)
    (unreserved : ∀ group ∈ names, ∀ name ∈ group, isReserved name = false) :
    (Record.written names parts).filter (fun field => !isReserved field.1) =
      Record.written names parts := by
  rw [List.filter_eq_self]
  intro field member
  obtain ⟨group, listed, named⟩ := Record.mem_written apart member
  simpa using unreserved group listed field.1 named

/-! ## The item of a record -/

variable {α : Type} [Entity α] {entity : α}

theorem unreserved_ofEntity : ∀ field ∈ (ofEntity entity).body, isReserved field.1 = false := by
  intro field member
  simpa using (List.mem_filter.1 member).2

theorem ordered_ofEntity : Json.ordered (ofEntity entity).body = (ofEntity entity).body := by
  have whole : Fields.mapValues Json.canonical (Json.ordered (Entity.fields entity)) =
      Json.ordered (Entity.fields entity) :=
    (Json.ordered_eq_mapValues Fields.ascending_sorted).symm.trans Json.ordered_ordered
  have body : (ofEntity entity).body =
      List.filter (fun field => !isReserved field.1) (Json.ordered (Entity.fields entity)) := rfl
  calc Json.ordered (ofEntity entity).body
      = Fields.mapValues Json.canonical (ofEntity entity).body :=
        Json.ordered_eq_mapValues (Fields.ascending_sorted.filter _)
    _ = List.filter (fun field => !isReserved field.1)
        (Fields.mapValues Json.canonical (Json.ordered (Entity.fields entity))) := by
      rw [body, Fields.mapValues, Fields.mapValues, List.filter_map]
      rfl
    _ = (ofEntity entity).body := by rw [whole, body]

/-- What a record is read from when it is taken out of its item: the id and all of its other fields,
each in canonical form. -/
theorem record?_ofEntity {names : List (List String)}
    (nodup : ((Entity.fields entity).map Prod.fst).Nodup) :
    (Document.ofJson (.object
        ((ofEntity entity).body.insert "itemId" (.string (ofEntity entity).id)))).record? names =
      (Record.ofFields? names (("itemId", .string (Entity.id entity)) ::
        (Entity.fields entity).filter fun field => !isReserved field.1)).map
          (List.map (Option.map Layout.byName.document)) := by
  have absent : (ofEntity entity).body.get? "itemId" = none :=
    Fields.get?_eq_none.2 fun field member => (ne_reserved.1 (unreserved_ofEntity field member)).1
  have body : (ofEntity entity).body.Perm (Fields.mapValues Json.canonical
      ((Entity.fields entity).filter fun field => !isReserved field.1)) := by
    have names : (Fields.mapValues Json.canonical (Entity.fields entity)).map Prod.fst =
        (Entity.fields entity).map Prod.fst := by
      rw [Fields.mapValues, List.map_map]
      rfl
    rw [ofEntity, Json.canonicalFields_eq_map]
    refine ((Fields.perm_sorted (names.symm ▸ nodup)).filter _).trans ?_
    rw [Fields.mapValues, List.filter_map]
    exact List.Perm.refl _
  have laidOut : (Document.ofFields
      ((ofEntity entity).body.insert "itemId" (.string (ofEntity entity).id))).Perm
      (Fields.mapValues Layout.byName.document (("itemId", .string (Entity.id entity)) ::
        (Entity.fields entity).filter fun field => !isReserved field.1)) := by
    rw [Document.ofFields_eq_map]
    refine (((Fields.perm_insert absent).trans (body.cons _)).map _).trans ?_
    rw [List.map_cons, Fields.mapValues, List.map_map, Fields.mapValues, List.map_cons,
      Layout.document_string, Document.ofJson]
    exact List.Perm.refl _
  rw [Document.ofJson, Document.record?, Record.ofFields?_perm laidOut, Record.ofFields?_mapValues]

variable {names : List (List String)} {parts : List (Option Json)}

/-- A record that keeps its id in one of its parts. -/
theorem record?_ofEntity_inside (apart : Record.Apart names)
    (unreserved : ∀ group ∈ names, ∀ name ∈ group, isReserved name = false)
    (length : names.length = parts.length)
    (written : Entity.fields entity = Record.written names parts) :
    (Document.ofJson (.object
        ((ofEntity entity).body.insert "itemId" (.string (ofEntity entity).id)))).record? names =
      some (parts.map (Option.map Layout.byName.document)) := by
  have nodup : ((Record.written names parts).map Prod.fst).Nodup := Record.nodup_written apart
  rw [record?_ofEntity (written ▸ nodup), written, filter_written apart unreserved,
    ← List.singleton_append, Record.ofFields?_append, Record.ofFields?_written apart length]
  · rfl
  · intro field member group listed named
    rw [List.mem_singleton] at member
    have reserved := unreserved group listed field.1 named
    rw [member] at reserved
    simp [isReserved] at reserved

/-- A record that has its id for a field of its own. -/
theorem record?_ofEntity_beside (apart : Record.Apart (["itemId"] :: names))
    (unreserved : ∀ group ∈ names, ∀ name ∈ group, isReserved name = false)
    (length : names.length = parts.length)
    (written : Entity.fields entity =
      ("itemId", .string (Entity.id entity)) :: Record.written names parts) :
    (Document.ofJson (.object ((ofEntity entity).body.insert "itemId"
        (.string (ofEntity entity).id)))).record? (["itemId"] :: names) =
      some (some (.string (Entity.id entity)) ::
        parts.map (Option.map Layout.byName.document)) := by
  let all : Fields Json :=
    Record.written (["itemId"] :: names) (some (.string (Entity.id entity)) :: parts)
  have whole : ("itemId", .string (Entity.id entity)) :: Record.written names parts = all := rfl
  have rest : (Entity.fields entity).filter (fun field => !isReserved field.1) =
      Record.written names parts := by
    rw [written, List.filter_cons_of_neg (by simp [isReserved])]
    rw [filter_written apart.tail unreserved]
  have nodup : (all.map Prod.fst).Nodup := Record.nodup_written apart
  rw [record?_ofEntity (written ▸ whole ▸ nodup), rest, whole,
    Record.ofFields?_written apart (by simp [length])]
  simp

end Item

end Clickstream
