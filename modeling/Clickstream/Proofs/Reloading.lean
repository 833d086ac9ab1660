import Clickstream.Proofs.Forest
import Clickstream.Proofs.JsonTexts
import Clickstream.Proofs.Reencoding
import Clickstream.Proofs.TagOrder

/-! # Reloading a taxonomy

Tags that are put in one after the other make a table, and the forest and the report are worked out
from that. So tags of different ids may come in any order: also where they run in circles, no tag
counts because it came first. The tags that a taxonomy lists, in the order of their ranks, may be
written as a text and read again; they then make the same forest, only that the text says nothing of
the modules that contributed them.
-/

namespace Clickstream.Taxonomy

variable {taxonomy : Taxonomy} {tags : Table Tag} {list other : List Tag} {t : Tag} {id : String}
  {ids : List String}

/-! ## Tags in any order -/

theorem get?_foldl_insert (nodup : (list.map Tag.id).Nodup) :
    (list.foldl insert taxonomy).tags.get? id = some t ↔
      t ∈ list ∧ t.id = id ∨ id ∉ list.map Tag.id ∧ taxonomy.tags.get? id = some t := by
  induction list generalizing taxonomy with
  | nil => simp
  | cons head rest ih =>
    obtain ⟨new, nodup⟩ := List.nodup_cons.1 nodup
    rw [List.foldl_cons, ih nodup, insert, Table.get?_insert]
    by_cases here : id = head.id
    · subst here
      have later : ¬ (t ∈ rest ∧ t.id = head.id) := fun again =>
        new (again.2 ▸ List.mem_map_of_mem again.1)
      simp only [new, later, if_true, Option.some.injEq, List.mem_cons, List.map_cons]
      grind
    · simp only [if_neg here, List.mem_cons, List.map_cons]
      grind

/-- A table of tags of different ids has each of them under its id. -/
theorem get?_collected (nodup : (list.map Tag.id).Nodup) :
    (list.foldl insert {}).tags.get? id = some t ↔ t ∈ list ∧ t.id = id := by
  simp [get?_foldl_insert nodup]

theorem ofTags_eq_rebuild :
    ofTags list = ({ tags := (list.foldl insert {}).tags } : Taxonomy).rebuild := rfl

theorem ofTags_eq_of_perm (nodup : (list.map Tag.id).Nodup) (same : other.Perm list) :
    ofTags other = ofTags list := by
  have nodup' : (other.map Tag.id).Nodup := (same.map Tag.id).nodup_iff.2 nodup
  have collected : (other.foldl insert {}).tags = (list.foldl insert {}).tags := by
    refine Table.ext fun id => Option.ext fun t => ?_
    rw [get?_collected nodup, get?_collected nodup', same.mem_iff]
  rw [ofTags_eq_rebuild, ofTags_eq_rebuild, collected]

/-! ## Tags without their modules -/

/-- The tags of a table as documents tell of them. -/
def keptTags (tags : Table Tag) : Table Tag := tags.map fun _ => Tag.kept

theorem keys_keptTags : (keptTags tags).keys = tags.keys := by
  rw [keptTags, Table.keys, Table.keys, Table.map, List.map_map]
  rfl

theorem size_keptTags : (keptTags tags).size = tags.size := by
  rw [keptTags, Table.size, Table.size, Table.map, List.length_map]

theorem values_keptTags : (keptTags tags).values = tags.values.map Tag.kept := by
  rw [keptTags, Table.values, Table.values, Table.map, List.map_map, List.map_map]
  rfl

theorem contains_keptTags : (keptTags tags).contains = tags.contains := by
  funext id
  rw [Table.contains, keptTags, Table.get?_map, Option.isSome_map, Table.contains]

theorem link_keptTags : link (keptTags tags) = link tags := by
  funext detached id
  rw [link, link, contains_keptTags, keptTags, Table.get?_map, Option.bind_map]
  rfl

theorem openCircles_keptTags : openCircles (keptTags tags) = openCircles tags := by
  have each : openCircle (keptTags tags) = openCircle tags := by
    funext acc id
    rw [openCircle, openCircle, link_keptTags, size_keptTags]
  rw [openCircles, openCircles, each, keys_keptTags]

theorem isOrphan_kept {detached : IdSet} :
    isOrphan (keptTags tags) detached t.kept = isOrphan tags detached t := by
  rw [isOrphan, isOrphan, contains_keptTags]
  rfl

/-- The modules of tags do not matter for the links between them. -/
theorem rebuild_keptTags : ({ tags := keptTags tags } : Taxonomy).rebuild =
    ({ (({ tags } : Taxonomy).rebuild).1 with tags := keptTags tags },
      (({ tags } : Taxonomy).rebuild).2) := by
  have orphans : ((keptTags tags).values.filter
      (isOrphan (keptTags tags) (openCircles tags).1)).map (·.id) =
      (tags.values.filter (isOrphan tags (openCircles tags).1)).map (·.id) := by
    have same : isOrphan (keptTags tags) (openCircles tags).1 ∘ Tag.kept =
        isOrphan tags (openCircles tags).1 := funext fun _ => isOrphan_kept
    rw [values_keptTags, List.filter_map, List.map_map, same]
    rfl
  simp only [rebuild, openCircles_keptTags, link_keptTags, keys_keptTags, orphans]

theorem ordered_keptTags : ({ taxonomy with tags := keptTags taxonomy.tags } : Taxonomy).ordered ids =
    (taxonomy.ordered ids).map Tag.kept := by
  have found : ({ taxonomy with tags := keptTags taxonomy.tags } : Taxonomy).get? =
      fun id => (taxonomy.get? id).map Tag.kept := by
    funext id
    exact Table.get?_map _
  have same : ∀ a ∈ ids.filterMap taxonomy.get?, ∀ b ∈ ids.filterMap taxonomy.get?,
      a.le b = a.kept.le b.kept := fun _ _ _ _ => rfl
  rw [ordered, ordered, List.map_mergeSort same, found, List.map_filterMap]

/-! ## The text of a taxonomy -/

/-- All tags, written as a text in their order. -/
def text (taxonomy : Taxonomy) : String := (Json.array (taxonomy.all.map Tag.toJson)).compact

/-- The tags that a text lists. -/
def readTags? (text : String) : Option (List Tag) :=
  (Json.read? text).bind (Document.list? Tag.ofDocument?)

/-- The text of a rank tells the rank. -/
def RankTold (t : Tag) : Prop :=
  Json.parse? (Json.doubleText t.rank) = some (.number (.double t.rank))

theorem tells_toJson {room : Nat} (told : RankTold t) : Json.Tells (room + 1) t.toJson := by
  have texts {name : String} {part : Option String} :
      ∀ field ∈ Json.optionalField name (part.map .string), Json.Tells room field.2 := by
    intro field member
    cases part with
    | none => cases member
    | some s => exact List.mem_singleton.1 member ▸ .string
  refine .object fun field member => ?_
  simp only [List.append_assoc, List.mem_append, List.mem_cons, List.not_mem_nil, or_false] at member
  rcases member with rfl | member | member | member | rfl | rfl
  · exact .string
  · exact texts field member
  · exact texts field member
  · exact texts field member
  · exact .number told
  · exact .bool

theorem readTags?_text (told : ∀ t ∈ taxonomy.all, RankTold t) :
    readTags? taxonomy.text = some (taxonomy.all.map Tag.kept) := by
  have tells : Json.Tells Json.depthLimit (.array (taxonomy.all.map Tag.toJson)) := by
    refine .array fun value member => ?_
    obtain ⟨t, inside, rfl⟩ := List.mem_map.1 member
    exact tells_toJson (told t inside)
  have layout (value : Json) : Document.ofJson value = Layout.held.document value := rfl
  rw [readTags?, text, Json.read?_compact tells, Option.bind_some, layout, Layout.document_array,
    List.map_map]
  exact Document.list?_map fun _ => Tag.ofDocument?_toJson

theorem mem_all (keyed : taxonomy.tags.KeyedBy Tag.id) :
    t ∈ taxonomy.all ↔ taxonomy.tags.get? t.id = some t := by
  rw [all, mem_ordered]
  constructor
  · rintro ⟨id, -, found⟩
    exact keyed id t found ▸ found
  · intro found
    exact ⟨t.id, Table.mem_keys.2 (Table.contains_iff.2 ⟨t, found⟩), found⟩

/-- The tags that a taxonomy lists make its table again. -/
theorem collected_all (keyed : taxonomy.tags.KeyedBy Tag.id) :
    ((taxonomy.all.map Tag.kept).foldl insert {}).tags = keptTags taxonomy.tags := by
  have nodup : ((taxonomy.all.map Tag.kept).map Tag.id).Nodup := by
    rw [List.map_map]
    exact nodup_ordered keyed Table.nodup_keys
  refine Table.ext fun id => Option.ext fun t => ?_
  rw [get?_collected nodup, keptTags, Table.get?_map, Option.map_eq_some_iff, List.mem_map]
  constructor
  · rintro ⟨⟨u, inside, rfl⟩, rfl⟩
    exact ⟨u, (mem_all keyed).1 inside, rfl⟩
  · rintro ⟨u, found, rfl⟩
    obtain rfl := keyed id u found
    exact ⟨⟨u, (mem_all keyed).2 found, rfl⟩, rfl⟩

/-! ## The same forest again -/

/-- The same links, the same tags in the same orders but for their modules, and the same report. -/
structure SameForest (first second : Taxonomy × TaxonomyReport) : Prop where
  edges : second.1.edges = first.1.edges
  roots : second.1.rootTags = first.1.rootTags.map Tag.kept
  subTags : ∀ id, second.1.subTags id = (first.1.subTags id).map Tag.kept
  all : second.1.all = first.1.all.map Tag.kept
  orphans : second.2.orphans = first.2.orphans
  cycles : second.2.cycles = first.2.cycles

theorem keyed_ofTags (list : List Tag) : (ofTags list).1.tags.KeyedBy Tag.id :=
  keyed_foldl_insert list fun _ _ found => absurd found (by simp)

theorem sameForest_reloaded (list : List Tag) :
    SameForest (ofTags list) (ofTags ((ofTags list).1.all.map Tag.kept)) := by
  have again : ofTags ((ofTags list).1.all.map Tag.kept) =
      ({ (ofTags list).1 with tags := keptTags (ofTags list).1.tags }, (ofTags list).2) := by
    rw [ofTags_eq_rebuild, collected_all (keyed_ofTags list), rebuild_keptTags]
    rfl
  rw [again]
  refine ⟨rfl, ordered_keptTags, fun id => ordered_keptTags, ?_, rfl, rfl⟩
  have keys : (keptTags (ofTags list).1.tags).keys = (ofTags list).1.tags.keys := keys_keptTags
  rw [all, keys]
  exact ordered_keptTags

/-- Neither the order of tags nor writing and reading them changes the forest that they make. -/
theorem ofTags_stable (list : List Tag) (nodup : (list.map Tag.id).Nodup) :
    (∀ other, other.Perm list → ofTags other = ofTags list) ∧
    ((∀ t ∈ list, RankTold t) → ∃ reloaded, readTags? (ofTags list).1.text = some reloaded ∧
      SameForest (ofTags list) (ofTags reloaded)) := by
  refine ⟨fun other same => ofTags_eq_of_perm nodup same, fun told => ?_⟩
  refine ⟨_, readTags?_text fun t inside => told t ?_, sameForest_reloaded list⟩
  exact ((get?_collected nodup).1 ((mem_all (keyed_ofTags list)).1 inside)).1

/-- A rank with one digit on either side of the point is told if its quotient is the rank. -/
theorem rankTold_of_tenths (whole tenth : Char) (n : Nat)
    (written : Json.doubleText t.rank = String.ofList [whole, '.', tenth])
    (digit : whole.isDigit = true) (numeral : Json.numeral? [whole, '.', tenth] =
      some ((Json.Mantissa.mk n (-1) false).double false 0, []))
    (quotient : Decimal.ofInt n / Decimal.scaled 1 1 = t.rank) : RankTold t := by
  have scaled : Json.rescale (Decimal.ofInt n) (-1 + 0) = some t.rank := by
    rw [Json.rescale]
    simp [quotient]
  have isNumber : (Json.Mantissa.mk n (-1) false).double false 0 =
      .number (.double t.rank) := by
    simp only [Json.Mantissa.double, scaled]
    rfl
  have isToken : Json.token? [whole, '.', tenth] = some (.scalar (.number (.double t.rank)), []) := by
    rw [Json.token?_of_digit (.inr digit), numeral, isNumber]
    rfl
  have tokens : Json.tokens? 3 [whole, '.', tenth] = some [.scalar (.number (.double t.rank))] :=
    Json.tokens?_cons (Json.bare_of_isDigit digit).1 isToken rfl
  rw [RankTold, written, Json.parse?, Json.read?, String.toList_ofList]
  simp only [List.length_cons, List.length_nil, tokens]
  rfl

/-- Two tags on a circle, of which one has another child, and a tag of an unknown parent. -/
def looped : List Tag :=
  [{ id := "a", parentId := some "b", rank := 2.5 }, { id := "b", parentId := some "a" },
    { id := "c", parentId := some "z", moduleId := some "m" },
    { id := "d", parentId := some "b", rank := 1.5 }]

theorem ofTags_stable_looped : (looped.map Tag.id).Nodup ∧ (∀ t ∈ looped, RankTold t) ∧
    (ofTags looped).2 = { orphans := ["c"], cycles := [["a", "b"]] } ∧
    (∀ other, other.Perm looped → ofTags other = ofTags looped) ∧
    ∃ reloaded, readTags? (ofTags looped).1.text = some reloaded ∧
      SameForest (ofTags looped) (ofTags reloaded) := by
  have nodup : (looped.map Tag.id).Nodup := by decide
  have zero : RankTold { id := "b", parentId := some "a" } :=
    rankTold_of_tenths '0' '0' 0 (by decide +kernel) rfl rfl (by decide +kernel)
  have told : ∀ t ∈ looped, RankTold t := by
    intro t member
    simp only [looped, List.mem_cons, List.not_mem_nil, or_false] at member
    rcases member with rfl | rfl | rfl | rfl
    · exact rankTold_of_tenths '2' '5' 25 (by decide +kernel) rfl rfl (by decide +kernel)
    · exact zero
    · exact zero
    · exact rankTold_of_tenths '1' '5' 15 (by decide +kernel) rfl rfl (by decide +kernel)
  have stable := ofTags_stable looped nodup
  exact ⟨nodup, told, by decide +kernel, stable.1, stable.2 told⟩

end Clickstream.Taxonomy
