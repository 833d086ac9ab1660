import Clickstream.Proofs.Descendants
import Clickstream.Proofs.Indexing

/-! # Types by tag

What the types under a tag are, whatever calls made the registry: those that declare the tag if it
is registered, and together with the tags below it, those that declare a registered tag whose chain
of parents leads there. Either way they are listed once each, in the order of their ids.
-/

namespace Clickstream

open Relation

universe u

/-- A look-up by tag finds the right types of a kind, with the tags below a tag or without. -/
structure Registry.FindsByTag {V : Type u} (r : Registry) (declared : Table V) (id : V → String)
    (tagIds : V → IdSet) (lookup : String → Bool → List (String × V)) : Prop where
  /-- Every type is listed under its own id. -/
  keyed : ∀ tag recursive, ∀ entry ∈ lookup tag recursive, id entry.2 = entry.1
  /-- The ids ascend, so no type is listed twice. -/
  ascending : ∀ tag recursive, ((lookup tag recursive).map fun entry => id entry.2).Pairwise (· < ·)
  /-- The types that declare the tag, if it is registered. -/
  direct : ∀ tag type, type ∈ (lookup tag false).map Prod.snd ↔
    type ∈ declared.values ∧ tag ∈ tagIds type ∧ r.definitions.tags.contains tag = true
  /-- The types that declare a registered tag whose chain of parents leads to the tag. -/
  below : ∀ tag type, type ∈ (lookup tag true).map Prod.snd ↔
    type ∈ declared.values ∧ ∃ own ∈ tagIds type, r.definitions.tags.contains own = true ∧
      ReflTransGen (Taxonomy.Parent r.definitions.tags) own tag
  /-- The types found directly under the tag or under a tag below it. -/
  union : ∀ tag type, type ∈ (lookup tag true).map Prod.snd ↔
    ∃ sub, ReflTransGen r.taxonomy.IsSubTag sub tag ∧ type ∈ (lookup sub false).map Prod.snd

namespace Registry

variable {V : Type u} {r : Registry} {table : Table V} {byTag : Table IdSet} {tag : String}
  {recursive : Bool}

theorem mem_underTag {entry : String × V} :
    entry ∈ r.underTag table byTag tag recursive ↔ table.get? entry.1 = some entry.2 ∧
      ∃ sub, (if recursive then sub ∈ r.taxonomy.descendantsAndSelf tag else sub = tag) ∧
        entry.1 ∈ byTag.under sub := by
  obtain ⟨id, value⟩ := entry
  have listed : ∀ sub, sub ∈ (if recursive then (r.taxonomy.descendantsAndSelf tag).toList
      else [tag]) ↔ if recursive then sub ∈ r.taxonomy.descendantsAndSelf tag else sub = tag := by
    intro sub
    cases recursive
    · simp
    · exact Iff.rfl
  simp only [underTag, List.mem_filterMap, IdSet.mem_toList, IdSet.mem_ofList, List.mem_flatMap,
    Option.map_eq_some_iff, Prod.mk.injEq, listed]
  constructor
  · rintro ⟨_, under, _, found, rfl, rfl⟩
    exact ⟨found, under⟩
  · rintro ⟨found, under⟩
    exact ⟨id, under, value, found, rfl, rfl⟩

theorem pairwise_underTag :
    ((r.underTag table byTag tag recursive).map Prod.fst).Pairwise (· < ·) := by
  rw [List.pairwise_map]
  refine List.Pairwise.filterMap _ (fun a b less entry found entry' found' => ?_)
    (IdSet.ascending _)
  obtain ⟨_, -, rfl⟩ := Option.map_eq_some_iff.1 found
  obtain ⟨_, -, rfl⟩ := Option.map_eq_some_iff.1 found'
  exact less

/-- The types found are those that declare a registered tag among the ones asked for. -/
theorem mem_map_underTag {tagIds : V → IdSet}
    (lists : ListsByTag r.definitions.tags tagIds table byTag) {type : V} :
    type ∈ (r.underTag table byTag tag recursive).map Prod.snd ↔ type ∈ table.values ∧
      ∃ own ∈ tagIds type, r.definitions.tags.contains own = true ∧
        if recursive then own ∈ r.taxonomy.descendantsAndSelf tag else own = tag := by
  simp only [List.mem_map, Prod.exists, exists_eq_right, mem_underTag, Table.mem_values]
  constructor
  · rintro ⟨name, found, own, asked, under⟩
    obtain ⟨_, found', declares, registered⟩ := (lists own name).1 under
    obtain rfl := Option.some.inj (found.symm.trans found')
    exact ⟨⟨name, found⟩, own, declares, registered, asked⟩
  · rintro ⟨⟨name, found⟩, own, declares, registered, asked⟩
    exact ⟨name, found, own, asked, (lists own name).2 ⟨type, found, declares, registered⟩⟩

namespace Indexed

theorem taxonomy (h : r.Indexed) :
    r.taxonomy = (({ tags := r.definitions.tags } : Taxonomy).rebuild).1 := by
  rw [Registry.taxonomy, h.index]
  rfl

theorem mem_descendantsAndSelf (h : r.Indexed) {child : String} :
    child ∈ r.taxonomy.descendantsAndSelf tag ↔ r.definitions.tags.contains tag = true ∧
      ReflTransGen (Taxonomy.Parent r.definitions.tags) child tag := by
  rw [h.taxonomy, Taxonomy.mem_descendantsAndSelf]

/-- The sub-tags listed are those with the tag as their parent in effect. -/
theorem isSubTag (h : r.Indexed) :
    r.taxonomy.IsSubTag = Taxonomy.Parent r.definitions.tags := by
  funext child parent
  rw [h.taxonomy]
  exact propext (Taxonomy.isSubTag_iff h.keyed.tags)

/-- Types that are listed under their own ids and indexed by tag are found by tag. -/
theorem findsByTag (h : r.Indexed) {id : V → String} {tagIds : V → IdSet}
    (keyed : table.KeyedBy id) (lists : ListsByTag r.definitions.tags tagIds table byTag) :
    r.FindsByTag table id tagIds (r.underTag table byTag) := by
  have keyed' : ∀ tag recursive, ∀ entry ∈ r.underTag table byTag tag recursive,
      id entry.2 = entry.1 :=
    fun tag recursive entry member => keyed _ _ (mem_underTag.1 member).1
  have direct : ∀ tag type, type ∈ (r.underTag table byTag tag false).map Prod.snd ↔
      type ∈ table.values ∧ tag ∈ tagIds type ∧ r.definitions.tags.contains tag = true := by
    intro tag type
    rw [mem_map_underTag lists]
    simp
  have below : ∀ tag type, type ∈ (r.underTag table byTag tag true).map Prod.snd ↔
      type ∈ table.values ∧ ∃ own ∈ tagIds type, r.definitions.tags.contains own = true ∧
        ReflTransGen (Taxonomy.Parent r.definitions.tags) own tag := by
    intro tag type
    rw [mem_map_underTag lists]
    simp only [if_true, h.mem_descendantsAndSelf]
    -- A tag that a chain from a registered one leads to is registered itself.
    refine and_congr_right fun _ => exists_congr fun own => and_congr_right fun _ => ?_
    exact and_congr_right fun registered => and_iff_right_of_imp fun reached =>
      (Taxonomy.contains_of_reached reached).1 registered
  refine ⟨keyed', fun tag recursive => ?_, direct, below, fun tag type => ?_⟩
  · have same : (r.underTag table byTag tag recursive).map (fun entry => id entry.2) =
        (r.underTag table byTag tag recursive).map Prod.fst :=
      List.map_congr_left (keyed' tag recursive)
    rw [same]
    exact pairwise_underTag
  · simp only [below, direct, h.isSubTag]
    constructor
    · rintro ⟨listed, own, declares, registered, reached⟩
      exact ⟨own, reached, listed, declares, registered⟩
    · rintro ⟨own, reached, listed, declares, registered⟩
      exact ⟨listed, own, declares, registered, reached⟩

end Indexed

/-- After any calls on an empty registry the types of each kind are found by tag. -/
theorem findsByTag_after (calls : List Call) :
    (after calls).FindsByTag (after calls).definitions.conditionTypes ConditionType.id
        ConditionType.tagIds (after calls).conditionTypesByTag ∧
      (after calls).FindsByTag (after calls).definitions.actionTypes ActionType.id
        ActionType.tagIds (after calls).actionTypesByTag ∧
      (after calls).FindsByTag (after calls).definitions.valueTypes ValueType.id
        ValueType.tagIds (after calls).valueTypesByTag := by
  have indexed := Indexed.after calls
  refine ⟨indexed.findsByTag indexed.keyed.conditionTypes ?_,
    indexed.findsByTag indexed.keyed.actionTypes ?_, indexed.findsByTag indexed.keyed.valueTypes ?_⟩
  all_goals
    rw [indexed.index]
    exact Index.listsByTag_byTag _

end Registry

end Clickstream
