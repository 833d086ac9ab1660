import Mathlib.Algebra.GroupWithZero.Nat
import Clickstream.Proofs.DateTexts
import Clickstream.Proofs.Sorting
import Clickstream.Proofs.Tallies

/-! # Counting dates

An aggregate by dates parts the matching items that have an instant by the day, month or year of it,
and counts each part. The buckets come in the order of their texts, which is the order of time as
long as all years are from -1 to 9999. Beyond these it is not: two earlier years come in the wrong
order, and so do a year of five digits and one of four.
-/

namespace Clickstream

open Time

namespace Item

/-- The instant that an item has in a field. -/
def instant? (item : Item) (field : String) : Option Instant :=
  (item.value? field).bind Json.instant?

/-- The instants that items have in a field. -/
def instants (field : String) (items : List Item) : List Instant :=
  items.filterMap fun item => item.instant? field

/-- The bucket of the instant that an item has in a field. -/
def dateBucket? (interval : DateInterval) (field : String) (item : Item) : Option String :=
  (item.instant? field).map interval.bucket

variable {interval : DateInterval} {field : String} {item : Item} {items : List Item} {t : Instant}

theorem mem_instants : t ∈ instants field items ↔ ∃ item ∈ items, item.instant? field = some t :=
  List.mem_filterMap

theorem dateBucket?_eq_some {key : String} : item.dateBucket? interval field = some key ↔
    ∃ t, item.instant? field = some t ∧ interval.bucket t = key :=
  Option.map_eq_some_iff

theorem bucketsOf_dates : Store.bucketsOf (.dates interval) field item =
    (item.dateBucket? interval field).toList := by
  rw [Store.bucketsOf, dateBucket?, instant?]
  cases item.value? field <;> rfl

end Item

namespace Store

/-- What an aggregate by dates finds and lists: the matching items, and those with an instant in
parts, each under the bucket of its instants. -/
structure DateBuckets (store : Store) (names : EvaluatorNames) (c : Condition)
    (interval : DateInterval) (field type : String) (matched : List Item)
    (parts : List (String × List Item)) : Prop where
  found : store.query names c none type = .ok matched
  /-- A part is listed with its number of items, and the number of all items comes last. -/
  listed : store.aggregate names c (.dates interval) field type =
    .ok (parts.map (fun part => (part.1, part.2.length)) ++ [(filteredKey, matched.length)])
  /-- Together the parts are the items that have an instant. -/
  whole : (parts.flatMap Prod.snd).Perm (matched.filter fun item => (item.instant? field).isSome)
  filled : ∀ part ∈ parts, part.2 ≠ []
  named : ∀ part ∈ parts, ∀ t ∈ Item.instants field part.2, interval.bucket t = part.1
  together : ∀ part ∈ parts, ∀ t ∈ Item.instants field part.2,
    ∀ u ∈ Item.instants field part.2, interval.Shares t u
  apart : parts.Pairwise fun first second => ∀ t ∈ Item.instants field first.2,
    ∀ u ∈ Item.instants field second.2, ¬ interval.Shares t u

/-- Every instant of a part is earlier than those of the parts behind it. -/
def Chronological (field : String) (parts : List (String × List Item)) : Prop :=
  parts.Pairwise fun first second => ∀ t ∈ Item.instants field first.2,
    ∀ u ∈ Item.instants field second.2, t.before u = true

variable {store : Store} {names : EvaluatorNames} {c : Condition} {interval : DateInterval}
  {field type : String} {counts : BucketCounts} {matched : List Item}
  {parts : List (String × List Item)}

/-! ## Parts -/

/-- The counts of the dates that items have in a field. -/
def dateCounts (interval : DateInterval) (field : String) (matched : List Item) : BucketCounts :=
  rankedCounts (.dates interval) (matched.flatMap (bucketsOf (.dates interval) field))

/-- The items with a date in a field, under the buckets that count them. -/
def dateParts (interval : DateInterval) (field : String) (matched : List Item) :
    List (String × List Item) :=
  (dateCounts interval field matched).map fun bucket =>
    (bucket.1, matched.filter fun item => item.dateBucket? interval field = some bucket.1)

theorem mem_dateCounts {key : String} : key ∈ (dateCounts interval field matched).map Prod.fst ↔
    ∃ item ∈ matched, item.dateBucket? interval field = some key := by
  rw [dateCounts, tallies_rankedCounts.mem_names]
  simp only [List.mem_flatMap, Item.bucketsOf_dates, Option.mem_toList]

theorem nodup_dateCounts : ((dateCounts interval field matched).map Prod.fst).Nodup :=
  tallies_rankedCounts.nodup

/-- A bucket counts its items. -/
theorem count_dateCounts {bucket : String × Nat} (h : bucket ∈ dateCounts interval field matched) :
    bucket.2 =
      (matched.filter fun item => item.dateBucket? interval field = some bucket.1).length := by
  have counted : bucket.2 = _ := (tallies_rankedCounts.mem_iff.1 h).2
  have once : ∀ item ∈ matched, ¬ 2 ≤ (bucketsOf (.dates interval) field item).count bucket.1 := by
    intro item _
    rw [Item.bucketsOf_dates]
    have atMost := (item.dateBucket? interval field).length_toList_le
    have := @List.count_le_length _ _ bucket.1 (item.dateBucket? interval field).toList
    omega
  rw [counted, count_flatMap_eq_iff.2 once]
  simp only [Item.bucketsOf_dates, Option.mem_toList]

theorem counts_dateParts : (dateParts interval field matched).map
    (fun part => (part.1, part.2.length)) = dateCounts interval field matched := by
  rw [dateParts, List.map_map]
  refine (List.map_congr_left fun bucket member => ?_).trans (List.map_id _)
  exact Prod.ext rfl (count_dateCounts member).symm

theorem whole_dateParts : ((dateParts interval field matched).flatMap Prod.snd).Perm
    (matched.filter fun item => (item.instant? field).isSome) := by
  have listed : ∀ item ∈ matched, ∀ key, item.dateBucket? interval field = some key →
      key ∈ (dateCounts interval field matched).map Prod.fst :=
    fun item member key isKey => mem_dateCounts.2 ⟨item, member, isKey⟩
  have parted := perm_flatMap_filter nodup_dateCounts listed
  simpa only [dateParts, List.flatMap_map, Item.dateBucket?, Option.isSome_map] using parted

theorem bucket_of_mem_dateParts {part : String × List Item} {t : Instant}
    (member : part ∈ dateParts interval field matched) (inPart : t ∈ Item.instants field part.2) :
    interval.bucket t = part.1 := by
  obtain ⟨bucket, -, rfl⟩ := List.mem_map.1 member
  obtain ⟨item, inItems, isInstant⟩ := Item.mem_instants.1 inPart
  have isKey := of_decide_eq_true (List.mem_filter.1 inItems).2
  obtain ⟨_, isInstant', same⟩ := Item.dateBucket?_eq_some.1 isKey
  obtain rfl := Option.some_inj.1 (isInstant.symm.trans isInstant')
  exact same

theorem filled_dateParts {part : String × List Item}
    (member : part ∈ dateParts interval field matched) : part.2 ≠ [] := by
  obtain ⟨bucket, listed, rfl⟩ := List.mem_map.1 member
  obtain ⟨item, inItems, isKey⟩ := mem_dateCounts.1 (List.mem_map_of_mem listed)
  exact List.ne_nil_of_mem (List.mem_filter.2 ⟨inItems, decide_eq_true isKey⟩)

/-- An aggregate by dates lists the parts of the matching items. -/
theorem dateBuckets_dateParts (h : store.matching names c type = .ok matched) :
    DateBuckets store names c interval field type matched (dateParts interval field matched) where
  found := query_none_iff.2 h
  listed := by
    rw [counts_dateParts]
    exact aggregate_eq_ok_iff.2 ⟨matched, h, rfl⟩
  whole := whole_dateParts
  filled _ := filled_dateParts
  named _ member _ := bucket_of_mem_dateParts member
  together part member t isT u isU := by
    rw [← DateInterval.bucket_eq_iff, bucket_of_mem_dateParts member isT,
      bucket_of_mem_dateParts member isU]
  apart := by
    have different : (dateParts interval field matched).Pairwise
        fun first second => first.1 ≠ second.1 :=
      List.pairwise_map.2 (List.pairwise_map.1 nodup_dateCounts)
    refine different.imp_of_mem fun {first second} inFirst inSecond other t isT u isU shared => ?_
    rw [← DateInterval.bucket_eq_iff, bucket_of_mem_dateParts inFirst isT,
      bucket_of_mem_dateParts inSecond isU] at shared
    exact other shared

/-! ## The order of the parts -/

/-- Together with the items that have no instant the parts count all items. -/
theorem DateBuckets.sum_add (h : DateBuckets store names c interval field type matched parts) :
    (parts.map fun part => part.2.length).sum +
      (matched.filter fun item => (item.instant? field).isNone).length = matched.length := by
  have whole := h.whole.length_eq
  rw [List.length_flatMap] at whole
  have all := matched.length_eq_length_filter_add fun item => (item.instant? field).isSome
  simp only [Option.not_isSome] at all
  rw [whole]
  exact all.symm

theorem DateBuckets.mem_instants (h : DateBuckets store names c interval field type matched parts)
    {t : Instant} : t ∈ Item.instants field matched ↔
      ∃ part ∈ parts, t ∈ Item.instants field part.2 := by
  constructor
  · intro isInstant
    obtain ⟨item, inItems, isInstant⟩ := Item.mem_instants.1 isInstant
    have inWhole : item ∈ matched.filter fun item => (item.instant? field).isSome :=
      List.mem_filter.2 ⟨inItems, Option.isSome_iff_exists.2 ⟨t, isInstant⟩⟩
    obtain ⟨part, member, inPart⟩ := List.mem_flatMap.1 (h.whole.mem_iff.2 inWhole)
    exact ⟨part, member, Item.mem_instants.2 ⟨item, inPart, isInstant⟩⟩
  · rintro ⟨part, member, inPart⟩
    obtain ⟨item, inItems, isInstant⟩ := Item.mem_instants.1 inPart
    have inWhole := h.whole.mem_iff.1 (List.mem_flatMap.2 ⟨part, member, inItems⟩)
    exact Item.mem_instants.2 ⟨item, (List.mem_filter.1 inWhole).1, isInstant⟩

/-- Parts come in the order of their buckets. -/
theorem DateBuckets.ascending
    (h : DateBuckets store names c interval field type matched parts) :
    parts.Pairwise fun first second => first.1 < second.1 := by
  obtain ⟨others, -, same⟩ := aggregate_eq_ok_iff.1 h.listed
  have ranked := (List.append_inj' same rfl).1
  have ascending :=
    ((others.flatMap (bucketsOf (.dates interval) field)).foldl countIn {}).ascending
  rw [rankedCounts] at ranked
  rw [Fields.Ascending, ← ranked] at ascending
  rwa [List.pairwise_map] at ascending

theorem DateBuckets.chronological
    (h : DateBuckets store names c interval field type matched parts)
    (years : ∀ t ∈ Item.instants field matched, -1 ≤ t.date.year ∧ t.date.year ≤ 9999) :
    Chronological field parts := by
  refine h.ascending.imp_of_mem fun {first second} inFirst inSecond less t isT u isU => ?_
  rw [← h.named first inFirst t isT, ← h.named second inSecond u isU] at less
  exact DateInterval.before_of_bucket_lt (years u (h.mem_instants.2 ⟨_, inSecond, isU⟩)).1
    (years t (h.mem_instants.2 ⟨_, inFirst, isT⟩)).2 less

/-- Parts in the order of time have their buckets in that order. -/
theorem DateBuckets.not_before (h : DateBuckets store names c interval field type matched parts)
    (chronological : Chronological field parts) {t u : Instant}
    (isT : t ∈ Item.instants field matched) (isU : u ∈ Item.instants field matched)
    (less : interval.bucket t < interval.bucket u) : t.before u = true := by
  obtain ⟨first, inFirst, isT⟩ := h.mem_instants.1 isT
  obtain ⟨second, inSecond, isU⟩ := h.mem_instants.1 isU
  rw [h.named first inFirst t isT, h.named second inSecond u isU] at less
  obtain ⟨i, hi, rfl⟩ := List.getElem_of_mem inFirst
  obtain ⟨j, hj, rfl⟩ := List.getElem_of_mem inSecond
  rcases Nat.lt_trichotomy i j with before | same | after
  · exact List.pairwise_iff_getElem.1 chronological i j hi hj before t isT u isU
  · subst same
    exact absurd less (String.lt_irrefl _)
  · have back := List.pairwise_iff_getElem.1 h.ascending j i hj hi after
    exact absurd (String.lt_trans less back) (String.lt_irrefl _)

/-! ## Years that come in the wrong order -/

theorem instants_threeItems {x y : Json} {t u : Instant} (isX : x.instant? = some t)
    (isY : y.instant? = some u) : Item.instants "k" (threeItems x y .null) = [t, u] := by
  have first : Item.instant? ⟨"a", "note", [("k", x)]⟩ "k" = some t := isX
  have second : Item.instant? ⟨"b", "note", [("k", y)]⟩ "k" = some u := isY
  have third : Item.instant? ⟨"c", "note", [("k", .null)]⟩ "k" = none := rfl
  simp [Item.instants, threeItems, first, second, third]

/-- Two items whose instants have their buckets in the wrong order are listed in that order. -/
theorem exists_not_chronological {x y : Json} {t u : Instant} (isX : x.instant? = some t)
    (isY : y.instant? = some u) (earlier : t.before u = true)
    (less : interval.bucket u < interval.bucket t) :
    ∃ parts, DateBuckets (threeStore x y .null) (fun _ => none) everything interval "k" "note"
      (threeItems x y .null) parts ∧ ¬ Chronological "k" parts := by
  have buckets := @dateBuckets_dateParts _ _ _ interval "k" _ _ (@matching_threeStore x y .null)
  refine ⟨_, buckets, fun chronological => ?_⟩
  have instants := instants_threeItems isX isY
  have late := buckets.not_before chronological (show u ∈ Item.instants "k" _ by simp [instants])
    (show t ∈ Item.instants "k" _ by simp [instants]) less
  rw [Instant.before, decide_eq_true_iff] at earlier late
  omega

/-- The beginning of a year. -/
def newYear (y : Int) : Instant := ⟨Date.toDays ⟨y, 1, 1⟩ * 86400, 0⟩

/-- A number of milliseconds for a whole second. -/
def millis (t : Instant) : Json := .number (.integer (t.seconds * 1000))

/-- Every bucket of the year -1 comes before those of the year -2. -/
theorem bucket_minusOne_lt : interval.bucket (newYear (-1)) < interval.bucket (newYear (-2)) := by
  cases interval <;> decide +kernel

/-- Every bucket of the year 10000 comes before those of 1970. -/
theorem bucket_tenThousand_lt :
    interval.bucket (newYear 10000) < interval.bucket (newYear 1970) := by
  cases interval <;> decide +kernel

/-- An aggregate by dates parts the matching items that have an instant by its day, month or year,
with the counts of the parts and the number of the items without an instant adding up to the total.
The parts are in the order of time for all instants of a range of years around 1970 exactly if it
reaches from -1 to 9999 at most. -/
theorem aggregate_dates_iff (interval : DateInterval) :
    (∀ (store : Store) (names : EvaluatorNames) (c : Condition) (field type : String)
        (counts : BucketCounts), store.aggregate names c (.dates interval) field type = .ok counts →
      ∃ matched parts, DateBuckets store names c interval field type matched parts ∧
        (parts.map fun part => part.2.length).sum +
          (matched.filter fun item => (item.instant? field).isNone).length = matched.length) ∧
    ∀ first last : Int, first ≤ 1970 → 1970 ≤ last →
      ((∀ (store : Store) (names : EvaluatorNames) (c : Condition) (field type : String)
          (matched : List Item) (parts : List (String × List Item)),
          DateBuckets store names c interval field type matched parts →
          (∀ t ∈ Item.instants field matched, first ≤ t.date.year ∧ t.date.year ≤ last) →
          Chronological field parts) ↔
        -1 ≤ first ∧ last ≤ 9999) := by
  refine ⟨?_, fun first last before after => ⟨fun ordered => ?_, fun inside => ?_⟩⟩
  · intro store names c field type counts aggregated
    obtain ⟨matched, found, -⟩ := aggregate_eq_ok_iff.1 aggregated
    have buckets := @dateBuckets_dateParts _ _ _ interval field _ _ found
    exact ⟨matched, _, buckets, buckets.sum_add⟩
  · have outside {t u : Instant} (isT : (millis t).instant? = some t)
        (isU : (millis u).instant? = some u) (earlier : t.before u = true)
        (less : interval.bucket u < interval.bucket t) :
        ¬ ((first ≤ t.date.year ∧ t.date.year ≤ last) ∧
          first ≤ u.date.year ∧ u.date.year ≤ last) := by
      rintro ⟨years, years'⟩
      obtain ⟨parts, buckets, wrong⟩ := exists_not_chronological isT isU earlier less
      refine wrong (ordered _ _ _ _ _ _ _ buckets ?_)
      simpa [instants_threeItems isT isU] using ⟨years, years'⟩
    have low := outside rfl rfl rfl bucket_minusOne_lt
    have high := outside rfl rfl rfl bucket_tenThousand_lt
    have years : (newYear (-2)).date.year = -2 ∧ (newYear (-1)).date.year = -1 ∧
        (newYear 1970).date.year = 1970 ∧ (newYear 10000).date.year = 10000 := by decide +kernel
    omega
  · intro store names c field type matched parts buckets years
    refine buckets.chronological fun t isInstant => ?_
    have := years t isInstant
    omega

/-- The first day of the year 10000 is listed before that of 1970. -/
theorem aggregate_tenThousand_first :
    let store := threeStore (.number (.integer 0)) (.number (.integer 253402300800000)) .null
    let matched := threeItems (.number (.integer 0)) (.number (.integer 253402300800000)) .null
    store.aggregate (fun _ => none) everything (.dates .day) "k" "note" =
        .ok [("+10000-01-01", 1), ("1970-01-01", 1), (filteredKey, 3)] ∧
      Item.instants "k" matched = [newYear 1970, newYear 10000] ∧
      (newYear 1970).before (newYear 10000) = true ∧
      ∃ parts, DateBuckets store (fun _ => none) everything .day "k" "note" matched parts ∧
        ¬ Chronological "k" parts := by
  refine ⟨aggregate_eq_ok_iff.2 ⟨_, matching_threeStore, ?_⟩, instants_threeItems rfl rfl, rfl,
    exists_not_chronological rfl rfl rfl bucket_tenThousand_lt⟩
  decide +kernel

end Store

end Clickstream
