import Clickstream.Proofs.Tables
import Clickstream.Registry.Load

/-! # The index answers for the definitions

After any calls on an empty registry every table lists its entries under their own ids, and all that
the registry derives from them — registered tags, categories, value types, the types under a tag,
groups and mappings — is what the definitions declared now say. A change replaces the whole index;
only dropping a module that contributes nothing leaves it, and then the definitions stay too.
-/

namespace Clickstream

/-- Every value of a table is listed under its own id. -/
def Table.KeyedBy {V : Type u} (table : Table V) (id : V → String) : Prop :=
  ∀ key value, table.get? key = some value → id value = key

/-- The ids that an index lists under a tag. -/
def Table.under (index : Table IdSet) (tag : String) : IdSet := (index.get? tag).getD .empty

/-- A call that changes a registry. -/
inductive Registry.Call where
  /-- Put in a tag. -/
  | registerTag (t : Tag)
  /-- Put in a condition type. -/
  | registerConditionType (t : ConditionType)
  /-- Put in an action type. -/
  | registerActionType (t : ActionType)
  /-- Put in a value type. -/
  | registerValueType (t : ValueType)
  /-- Put in a property type. -/
  | registerPropertyType (t : PropertyType)
  /-- Replace what a module contributes. -/
  | load (source : ModuleSource)
  /-- Drop what a module contributes. -/
  | unload (module : ModuleId)

namespace Registry

/-- The registry that a call leaves. -/
def Call.next (r : Registry) : Call → Registry
  | registerTag t => (r.registerTag t).value
  | registerConditionType t => (r.registerConditionType t).value
  | registerActionType t => (r.registerActionType t).value
  | registerValueType t => (r.registerValueType t).value
  | registerPropertyType t => (r.registerPropertyType t).value
  | load source => (r.load source).1
  | unload module => (r.unload module).1

/-- The registry that calls on an empty one leave. -/
def after (calls : List Call) : Registry := calls.foldl Call.next {}

end Registry

/-! ## What a whole index says -/

/-- Published types are the declared ones, each with exactly its registered tags. -/
structure ResolvesTags {V : Type u} {E : Type v} (tags : Table Tag) (tagIds : V → IdSet)
    (declared : Table V) (published : Table E) (type : E → V) (resolved : E → IdSet) : Prop where
  types : ∀ id, (published.get? id).map type = declared.get? id
  tags : ∀ id entry, published.get? id = some entry → ∀ tag,
    tag ∈ resolved entry ↔ tag ∈ tagIds (type entry) ∧ tags.contains tag = true

/-- An id is listed under a tag exactly if its type declares the tag and the tag is registered. -/
def ListsByTag {V : Type u} (tags : Table Tag) (tagIds : V → IdSet) (declared : Table V)
    (byTag : Table IdSet) : Prop :=
  ∀ tag id, id ∈ byTag.under tag ↔
    ∃ type, declared.get? id = some type ∧ tag ∈ tagIds type ∧ tags.contains tag = true

/-- Every kind of definition is listed under its own ids. -/
structure Definitions.Keyed (d : Definitions) : Prop where
  tags : d.tags.KeyedBy Tag.id
  conditionTypes : d.conditionTypes.KeyedBy ConditionType.id
  actionTypes : d.actionTypes.KeyedBy ActionType.id
  valueTypes : d.valueTypes.KeyedBy ValueType.id
  propertyTypes : d.propertyTypes.KeyedBy PropertyType.id
  propertyGroups : d.propertyGroups.KeyedBy PropertyGroup.id

/-- The groups are the declared ones and those that property types name, with their members. -/
structure Index.Groups (d : Definitions) (groups : Table IndexedGroup) : Prop where
  listed : ∀ id, groups.contains id = true ↔ d.propertyGroups.contains id = true ∨
    ∃ key t, d.propertyTypes.get? key = some t ∧ t.groupId = id
  declared : ∀ id group declared, groups.get? id = some group →
    d.propertyGroups.get? id = some declared → group.group = declared
  keyed : groups.KeyedBy (·.group.id)
  implicit : ∀ id group, groups.get? id = some group →
    (group.implicit = true ↔ d.propertyGroups.contains id = false)
  members : ∀ id group, groups.get? id = some group → ∀ member,
    member ∈ group.members ↔ ∃ t, d.propertyTypes.get? member = some t ∧ t.groupId = id

/-- A name maps to the last of the property types that stand for it, in the order of their ids. -/
def Index.Maps (types : Table PropertyType) (mappings : Table String) : Prop :=
  ∀ name id, mappings.get? name = some id ↔
    (∃ t, types.get? id = some t ∧ name ∈ t.mappingsFrom) ∧
    ∀ other t, types.get? other = some t → name ∈ t.mappingsFrom → other ≤ id

/-- All that a registry derives is what its definitions say now. -/
structure Registry.FullyIndexed (r : Registry) : Prop where
  keyed : r.definitions.Keyed
  conditionTypes : ResolvesTags r.definitions.tags ConditionType.tagIds r.definitions.conditionTypes
    r.index.conditionTypes ClassifiedType.type ClassifiedType.resolvedTags
  actionTypes : ResolvesTags r.definitions.tags ActionType.tagIds r.definitions.actionTypes
    r.index.actionTypes Tagged.type Tagged.resolvedTags
  valueTypes : ResolvesTags r.definitions.tags ValueType.tagIds r.definitions.valueTypes
    r.index.valueTypes Tagged.type Tagged.resolvedTags
  propertyTypes : ResolvesTags r.definitions.tags PropertyType.tagIds r.definitions.propertyTypes
    r.index.propertyTypes IndexedProperty.type IndexedProperty.resolvedTags
  conditionTypesByTag : ListsByTag r.definitions.tags ConditionType.tagIds
    r.definitions.conditionTypes r.index.conditionTypesByTag
  actionTypesByTag : ListsByTag r.definitions.tags ActionType.tagIds
    r.definitions.actionTypes r.index.actionTypesByTag
  valueTypesByTag : ListsByTag r.definitions.tags ValueType.tagIds
    r.definitions.valueTypes r.index.valueTypesByTag
  category : ∀ id entry, r.conditionType? id = some entry →
    entry.category = entry.type.declaredCategory.getD
      (if Category.ofTags entry.resolvedTags = .unclassified then Category.ofTags entry.type.tagIds
        else Category.ofTags entry.resolvedTags)
  valueType : ∀ id entry, r.propertyType? id = some entry →
    entry.valueType = r.valueType? entry.type.valueTypeId
  groups : Index.Groups r.definitions r.index.groups
  propertyMappings : Index.Maps r.definitions.propertyTypes r.index.propertyMappings

/-! ## Working out an index -/

namespace Index

variable {V : Type u} {tags : Table Tag} {declared : V → IdSet}

theorem mem_resolvedTags {ids : IdSet} {tag : String} :
    tag ∈ resolvedTags tags ids ↔ tag ∈ ids ∧ tags.contains tag = true :=
  IdSet.mem_filter

theorem under_noteTag {index : Table IdSet} {id tag other : String} :
    (noteTag id index tag).under other =
      if other = tag then (index.under tag).insert id else index.under other := by
  rw [noteTag, Table.under, Table.get?_insert]
  split <;> rfl

private theorem mem_under_foldl_noteTag {id member tag : String} {ids : List String}
    {index : Table IdSet} : member ∈ (ids.foldl (noteTag id) index).under tag ↔
      tag ∈ ids ∧ member = id ∨ member ∈ index.under tag := by
  induction ids generalizing index with
  | nil => simp
  | cons head rest ih =>
    rw [List.foldl_cons, ih, under_noteTag]
    split
    · next same => subst same; simp only [IdSet.mem_insert, List.mem_cons]; grind
    · next other => simp only [List.mem_cons, other, false_or]

private theorem mem_under_foldl_entries {entries : Fields V} {index : Table IdSet}
    {member tag : String} :
    member ∈ (entries.foldl (fun index (id, value) =>
      (resolvedTags tags (declared value)).toList.foldl (noteTag id) index) index).under tag ↔
    (∃ value, (member, value) ∈ entries ∧ tag ∈ resolvedTags tags (declared value)) ∨
      member ∈ index.under tag := by
  induction entries generalizing index with
  | nil => simp
  | cons head rest ih =>
    rw [List.foldl_cons, ih, mem_under_foldl_noteTag, IdSet.mem_toList]
    simp only [List.mem_cons]
    grind

theorem listsByTag_byTag (table : Table V) :
    ListsByTag tags declared table (byTag tags declared table) := by
  intro tag id
  have empty : id ∉ ({} : Table IdSet).under tag := IdSet.not_mem_empty
  simp only [byTag, mem_under_foldl_entries, empty, or_false, Table.mem_entries, mem_resolvedTags]

theorem resolvesTags_map {E : Type v} (table : Table V) {entry : V → E} {type : E → V}
    {resolved : E → IdSet} (same : ∀ t, type (entry t) = t)
    (tagged : ∀ t, resolved (entry t) = resolvedTags tags (declared t)) :
    ResolvesTags tags declared table (table.map fun _ t => entry t) type resolved where
  types id := by cases found : table.get? id <;> simp [found, same]
  tags id published found tag := by
    rw [Table.get?_map] at found
    obtain ⟨t, -, rfl⟩ := Option.map_eq_some_iff.1 found
    rw [tagged, same, mem_resolvedTags]

theorem resolvesTags_tagged (table : Table V) : ResolvesTags tags declared table
    (tagged tags declared table) Tagged.type Tagged.resolvedTags :=
  resolvesTags_map table (fun _ => rfl) (fun _ => rfl)

theorem get?_addMember {groups : Table IndexedGroup} {t : PropertyType} {id : String} :
    (addMember groups t).get? id =
      if id = t.groupId then
        let group := (groups.get? id).getD { group := { id }, implicit := true }
        some { group with members := group.members.insert t.id }
      else groups.get? id := by
  rw [addMember, Table.get?_insert]
  split
  · next same => subst same; rfl
  · rfl

/-- What a fold over property types makes of the group of an id. -/
private theorem get?_foldl_addMember {types : List PropertyType} {groups : Table IndexedGroup}
    {id : String} {group : IndexedGroup} (h : (types.foldl addMember groups).get? id = some group) :
    group.group = ((groups.get? id).map IndexedGroup.group).getD { id } ∧
    group.implicit = ((groups.get? id).map IndexedGroup.implicit).getD true ∧
    ∀ member, member ∈ group.members ↔ (∃ t ∈ types, t.groupId = id ∧ t.id = member) ∨
      ∃ before, groups.get? id = some before ∧ member ∈ before.members := by
  induction types generalizing groups with
  | nil => rw [List.foldl_nil] at h; simp [h]
  | cons head rest ih =>
    obtain ⟨same, implicit, members⟩ := ih h
    rw [get?_addMember] at same implicit members
    split at same
    · next at_ =>
      rw [if_pos at_] at implicit members
      cases before : groups.get? id <;> simp_all <;> grind
    · next off =>
      rw [if_neg off] at implicit members
      refine ⟨same, implicit, fun member => ?_⟩
      rw [members member]
      grind

private theorem contains_foldl_addMember {types : List PropertyType} {groups : Table IndexedGroup}
    {id : String} : (types.foldl addMember groups).contains id = true ↔
      groups.contains id = true ∨ ∃ t ∈ types, t.groupId = id := by
  induction types generalizing groups with
  | nil => simp
  | cons head rest ih =>
    rw [List.foldl_cons, ih, Table.contains, get?_addMember, Table.contains]
    grind

theorem groups_ofDefinitions {d : Definitions} (h : d.Keyed) :
    Groups d (ofDefinitions d).groups := by
  have member_iff : ∀ {id member}, (∃ t ∈ d.propertyTypes.values, t.groupId = id ∧ t.id = member) ↔
      ∃ t, d.propertyTypes.get? member = some t ∧ t.groupId = id := by
    intro id member
    simp only [Table.mem_values]
    constructor
    · rintro ⟨t, ⟨key, found⟩, named, rfl⟩
      obtain rfl := h.propertyTypes _ _ found
      exact ⟨t, found, named⟩
    · rintro ⟨t, found, named⟩
      exact ⟨t, ⟨member, found⟩, named, h.propertyTypes _ _ found⟩
  have group_cases : ∀ {id group}, (ofDefinitions d).groups.get? id = some group →
      group.group = (d.propertyGroups.get? id).getD { id } ∧
      (group.implicit = true ↔ d.propertyGroups.contains id = false) ∧
      ∀ member, member ∈ group.members ↔
        ∃ t, d.propertyTypes.get? member = some t ∧ t.groupId = id := by
    intro id group found
    obtain ⟨same, implicit, members⟩ := get?_foldl_addMember found
    rw [Table.get?_map] at same implicit members
    refine ⟨?_, ?_, fun member => ?_⟩
    · rw [same]; cases d.propertyGroups.get? id <;> rfl
    · rw [implicit, Table.contains]; cases d.propertyGroups.get? id <;> simp
    · rw [members member, member_iff]
      cases d.propertyGroups.get? id <;> simp
  refine ⟨fun id => ?_, fun id group declared found known => ?_, fun id group found => ?_,
    fun id group found => (group_cases found).2.1, fun id group found => (group_cases found).2.2⟩
  · have mapped : (d.propertyGroups.map fun _ group => ({ group } : IndexedGroup)).contains id =
        d.propertyGroups.contains id := by
      rw [Table.contains, Table.get?_map, Option.isSome_map, Table.contains]
    rw [ofDefinitions, contains_foldl_addMember, mapped]
    simp only [Table.mem_values]
    grind
  · rw [(group_cases found).1, known, Option.getD_some]
  · have named : ((d.propertyGroups.get? id).getD { id }).id = id := by
      cases known : d.propertyGroups.get? id with
      | none => rfl
      | some declared => exact h.propertyGroups _ _ known
    exact (congrArg PropertyGroup.id (group_cases found).1).trans named

theorem get?_addMappings {mappings : Table String} {t : PropertyType} {name : String} :
    (addMappings mappings t).get? name =
      if name ∈ t.mappingsFrom then some t.id else mappings.get? name := by
  rw [addMappings]
  induction t.mappingsFrom generalizing mappings with
  | nil => simp
  | cons head rest ih =>
    rw [List.foldl_cons, ih, Table.get?_insert]
    grind

/-- The last property type that stands for a name wins. -/
private theorem get?_foldl_addMappings {types : List PropertyType} {mappings : Table String}
    {name : String} : (types.foldl addMappings mappings).get? name =
      ((types.reverse.find? (name ∈ ·.mappingsFrom)).map PropertyType.id).or
        (mappings.get? name) := by
  induction types generalizing mappings with
  | nil => simp
  | cons head rest ih =>
    rw [List.foldl_cons, ih, get?_addMappings, List.reverse_cons, List.find?_append,
      Option.map_or, Option.or_assoc]
    congr 1
    by_cases named : name ∈ head.mappingsFrom <;> simp [named]

/-- Among property types in the order of their ids the last that passes a test has the greatest. -/
private theorem find?_reverse_greatest {types : List PropertyType} {p : PropertyType → Bool}
    {t : PropertyType} (order : types.Pairwise fun a b => a.id < b.id)
    (h : types.reverse.find? p = some t) :
    t ∈ types ∧ p t = true ∧ ∀ u ∈ types, p u = true → u.id ≤ t.id := by
  obtain ⟨passes, later, earlier, eq, missed⟩ := List.find?_eq_some_iff_append.1 h
  refine ⟨List.mem_reverse.1 (by simp [eq]), passes, fun u inside passesToo => ?_⟩
  have descending : (later ++ t :: earlier).Pairwise fun a b => b.id < a.id :=
    eq ▸ List.pairwise_reverse.2 order
  have place : u ∈ later ++ t :: earlier := eq ▸ List.mem_reverse.2 inside
  rcases List.mem_append.1 place with before | after
  · exact absurd passesToo (by simpa using missed u before)
  · rcases List.mem_cons.1 after with rfl | after
    · exact String.le_refl _
    · have less := (List.pairwise_cons.1 (List.pairwise_append.1 descending).2.1).1 u after
      exact String.not_lt.1 (String.lt_asymm less)

theorem maps_ofDefinitions {d : Definitions} (h : d.Keyed) :
    Maps d.propertyTypes (ofDefinitions d).propertyMappings := by
  have order : d.propertyTypes.values.Pairwise fun a b => a.id < b.id := by
    refine List.pairwise_map.2 (d.propertyTypes.ascending.imp_of_mem ?_)
    intro a b inA inB less
    rw [h.propertyTypes _ _ (Table.mem_entries.1 inA),
      h.propertyTypes _ _ (Table.mem_entries.1 inB)]
    exact less
  have listed : ∀ {t}, t ∈ d.propertyTypes.values ↔ d.propertyTypes.get? t.id = some t := by
    intro t
    rw [Table.mem_values]
    constructor
    · rintro ⟨key, found⟩
      obtain rfl := h.propertyTypes _ _ found
      exact found
    · exact fun found => ⟨_, found⟩
  intro name id
  have found_iff : (ofDefinitions d).propertyMappings.get? name =
      (d.propertyTypes.values.reverse.find? (name ∈ ·.mappingsFrom)).map PropertyType.id := by
    rw [ofDefinitions, get?_foldl_addMappings, Table.get?_default, Option.or_none]
  rw [found_iff, Option.map_eq_some_iff]
  constructor
  · rintro ⟨t, found, rfl⟩
    obtain ⟨inside, named, greatest⟩ := find?_reverse_greatest order found
    refine ⟨⟨t, listed.1 inside, by simpa using named⟩, fun other u known namedToo => ?_⟩
    obtain rfl := h.propertyTypes _ _ known
    exact greatest u (listed.2 known) (by simpa using namedToo)
  · rintro ⟨⟨t, known, named⟩, greatest⟩
    have inside := Table.mem_values.2 ⟨_, known⟩
    cases found : d.propertyTypes.values.reverse.find? (name ∈ ·.mappingsFrom) with
    | none =>
      exact absurd named (by simpa using List.find?_eq_none.1 found t (by simpa using inside))
    | some u =>
      obtain ⟨insideToo, namedToo, last⟩ := find?_reverse_greatest order found
      have atMost := greatest u.id u (listed.1 insideToo) (by simpa using namedToo)
      have atLeast := last t inside (by simpa using named)
      rw [h.propertyTypes _ _ known] at atLeast
      exact ⟨u, rfl, String.le_antisymm atMost atLeast⟩

end Index

/-! ## Calls keep the index whole -/

namespace Table.KeyedBy

variable {V : Type u} {table : Table V} {id : V → String}

theorem filter (h : table.KeyedBy id) (keep : String → V → Bool) :
    (table.filter keep).KeyedBy id := by
  intro key value found
  rw [Table.get?_filter] at found
  exact h key value (Option.eq_some_of_filter_eq_some found)

theorem insertAll (h : table.KeyedBy id) (values : List V) :
    (table.insertAll (values.map fun value => (id value, value))).KeyedBy id := by
  intro key value found
  rcases Table.get?_insertAll_cases found with put | old
  · obtain ⟨same, -, eq⟩ := List.mem_map.1 put
    cases eq
    rfl
  · exact h key value old

end Table.KeyedBy

namespace Definitions.Keyed

variable {d : Definitions}

theorem empty : ({} : Definitions).Keyed := by
  constructor <;> (intro key value found; cases found)

theorem retract (h : d.Keyed) (module : ModuleId) : (d.retract module).Keyed where
  tags := h.tags.filter _
  conditionTypes := h.conditionTypes.filter _
  actionTypes := h.actionTypes.filter _
  valueTypes := h.valueTypes.filter _
  propertyTypes := h.propertyTypes.filter _
  propertyGroups := h.propertyGroups.filter _

theorem apply (h : d.Keyed) (batch : Batch) : (d.apply batch).Keyed where
  tags := h.tags.insertAll _
  conditionTypes := h.conditionTypes.insertAll _
  actionTypes := h.actionTypes.insertAll _
  valueTypes := h.valueTypes.insertAll _
  propertyTypes := h.propertyTypes.insertAll _
  propertyGroups := h.propertyGroups.insertAll _

end Definitions.Keyed

namespace Registry

/-- The definitions stand under their own ids and the index is the one that they give. -/
structure Indexed (r : Registry) : Prop where
  keyed : r.definitions.Keyed
  index : r.index = Index.ofDefinitions r.definitions

namespace Indexed

variable {r : Registry}

theorem empty : ({} : Registry).Indexed := ⟨.empty, rfl⟩

theorem publish {d : Definitions} (h : d.Keyed) : (r.publish d).Indexed := ⟨h, rfl⟩

theorem load (h : r.Indexed) (source : ModuleSource) : (r.load source).1.Indexed :=
  publish ((h.keyed.retract _).apply _)

theorem unload (h : r.Indexed) (module : ModuleId) : (r.unload module).1.Indexed := by
  simp only [Registry.unload]
  split
  -- The index stays as it is, and so do the definitions that it was worked out from.
  · exact ⟨h.keyed, h.index⟩
  · exact publish (h.keyed.retract module)

theorem next (h : r.Indexed) (call : Call) : (call.next r).Indexed := by
  cases call with
  | registerTag t => exact publish (h.keyed.apply _)
  | registerConditionType t => exact publish (h.keyed.apply _)
  | registerActionType t => exact publish (h.keyed.apply _)
  | registerValueType t => exact publish (h.keyed.apply _)
  | registerPropertyType t => exact publish (h.keyed.apply _)
  | load source => exact h.load source
  | unload module => exact h.unload module

theorem after (calls : List Call) : (Registry.after calls).Indexed := by
  have step : ∀ (calls : List Call) (r : Registry), r.Indexed →
      (calls.foldl Call.next r).Indexed := by
    intro calls
    induction calls with
    | nil => exact fun _ h => h
    | cons call rest ih => exact fun r h => ih _ (h.next call)
  exact step calls {} empty

theorem category (h : r.Indexed) {id : String} {entry : ClassifiedType}
    (found : r.conditionType? id = some entry) :
    entry.category = entry.type.category entry.resolvedTags := by
  rw [conditionType?, h.index, Index.ofDefinitions, Table.get?_map] at found
  obtain ⟨t, -, rfl⟩ := Option.map_eq_some_iff.1 found
  rfl

theorem valueType (h : r.Indexed) {id : String} {entry : IndexedProperty}
    (found : r.propertyType? id = some entry) :
    entry.valueType = r.valueType? entry.type.valueTypeId := by
  rw [propertyType?, h.index, Index.ofDefinitions, Table.get?_map] at found
  obtain ⟨t, -, rfl⟩ := Option.map_eq_some_iff.1 found
  rw [valueType?, h.index]
  rfl

end Indexed

/-- After any calls on an empty registry nothing that it derives is stale. -/
theorem fullyIndexed_after (calls : List Call) : (after calls).FullyIndexed := by
  have indexed := Indexed.after calls
  exact {
    keyed := indexed.keyed
    conditionTypes := by
      rw [indexed.index]; exact Index.resolvesTags_map _ (fun _ => rfl) (fun _ => rfl)
    actionTypes := by rw [indexed.index]; exact Index.resolvesTags_tagged _
    valueTypes := by rw [indexed.index]; exact Index.resolvesTags_tagged _
    propertyTypes := by
      rw [indexed.index]; exact Index.resolvesTags_map _ (fun _ => rfl) (fun _ => rfl)
    conditionTypesByTag := by rw [indexed.index]; exact Index.listsByTag_byTag _
    actionTypesByTag := by rw [indexed.index]; exact Index.listsByTag_byTag _
    valueTypesByTag := by rw [indexed.index]; exact Index.listsByTag_byTag _
    category := fun id entry found => by
      rw [indexed.category found, ConditionType.category]
      cases Category.ofTags entry.resolvedTags <;> rfl
    valueType := fun id entry found => indexed.valueType found
    groups := by rw [indexed.index]; exact Index.groups_ofDefinitions indexed.keyed
    propertyMappings := by rw [indexed.index]; exact Index.maps_ofDefinitions indexed.keyed }

end Registry

end Clickstream
