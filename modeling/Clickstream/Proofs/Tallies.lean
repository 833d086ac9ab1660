import Mathlib.Data.List.Nodup
import Clickstream.Proofs.Tables
import Clickstream.Report

/-! # Tallies

Counting in buckets lists every bucket that occurs once, with the number of its occurrences, and
puts the number of all items behind them under a name of its own. A report takes the total out again
by that name. Where a bucket goes by the same name the report takes the count of the bucket for the
total, and shows the total as the count of the bucket.
-/

namespace Clickstream

/-- The buckets that occur, each once and with the number of its occurrences. -/
structure Tallies (counts : BucketCounts) (keys : List String) : Prop where
  mem_iff : ∀ {key count}, (key, count) ∈ counts ↔ key ∈ keys ∧ count = keys.count key
  nodup : (counts.map Prod.fst).Nodup

namespace Store

theorem get?_foldl_countIn {keys : List String} {counts : Table Nat} {key : String} :
    (keys.foldl countIn counts).get? key =
      if key ∈ keys then some ((counts.get? key).getD 0 + keys.count key)
      else counts.get? key := by
  induction keys generalizing counts with
  | nil => simp
  | cons first rest ih =>
    rw [List.foldl_cons, ih, countIn, Table.get?_insert]
    by_cases here : key = first
    · subst here
      by_cases later : key ∈ rest
      · simp [later]; omega
      · simp [later, List.count_eq_zero_of_not_mem later]
    · have other : first ≠ key := fun same => here same.symm
      simp [here, other]

theorem tallies_foldl_countIn {keys : List String} :
    Tallies (keys.foldl countIn {}).entries keys := by
  constructor
  · intro key count
    rw [Table.mem_entries, get?_foldl_countIn]
    by_cases occurs : key ∈ keys
    · simp [occurs, eq_comm]
    · simp [occurs]
  · refine (keys.foldl countIn {}).idSet.ascending.imp ?_
    intro a b less same
    subst same
    exact String.lt_irrefl a less

end Store

theorem Tallies.mem_names {counts : BucketCounts} {keys : List String} (h : Tallies counts keys)
    {key : String} : key ∈ counts.map Prod.fst ↔ key ∈ keys := by
  constructor
  · intro listed
    obtain ⟨⟨_, count⟩, member, rfl⟩ := List.mem_map.1 listed
    exact (h.mem_iff.1 member).1
  · intro occurs
    exact List.mem_map.2 ⟨(key, keys.count key), h.mem_iff.2 ⟨occurs, rfl⟩, rfl⟩

theorem Tallies.perm {counts other : BucketCounts} {keys : List String} (h : Tallies counts keys)
    (same : other.Perm counts) : Tallies other keys := by
  constructor
  · intro key count
    rw [same.mem_iff, h.mem_iff]
  · exact (same.map Prod.fst).nodup_iff.2 h.nodup

namespace Store

/-- The buckets of some keys as an aggregate ranks them. -/
def rankedCounts (bucketing : Bucketing) (keys : List String) : BucketCounts :=
  match bucketing with
  | .dates _ => (keys.foldl countIn {}).entries
  | .terms => (keys.foldl countIn {}).entries.mergeSort rankedBefore

theorem tallies_rankedCounts {bucketing : Bucketing} {keys : List String} :
    Tallies (rankedCounts bucketing keys) keys := by
  cases bucketing with
  | dates interval => exact tallies_foldl_countIn
  | terms => exact tallies_foldl_countIn.perm (List.mergeSort_perm _ _)

variable {store : Store} {names : EvaluatorNames} {c : Condition} {bucketing : Bucketing}
  {field type : String} {counts : BucketCounts}

/-- An aggregate succeeds exactly if the items can be found, and lists the buckets of their keys
with the total behind them. -/
theorem aggregate_eq_ok_iff : store.aggregate names c bucketing field type = .ok counts ↔
    ∃ matched, store.matching names c type = .ok matched ∧
      counts = rankedCounts bucketing (matched.flatMap (bucketsOf bucketing field)) ++
        [(filteredKey, matched.length)] := by
  rw [aggregate]
  cases store.matching names c type with
  | error e => exact ⟨nofun, fun ⟨_, found, _⟩ => nomatch found⟩
  | ok matched =>
    constructor
    · rintro ⟨⟩
      exact ⟨matched, rfl, by cases bucketing <;> rfl⟩
    · rintro ⟨_, ⟨⟩, rfl⟩
      cases bucketing <;> rfl

/-- What an aggregate lists: the buckets in some order, and the total behind them. -/
theorem aggregate_eq_ok (h : store.aggregate names c bucketing field type = .ok counts) :
    ∃ matched ranked, store.matching names c type = .ok matched ∧
      Tallies ranked (matched.flatMap (bucketsOf bucketing field)) ∧
      counts = ranked ++ [(filteredKey, matched.length)] := by
  obtain ⟨matched, found, rfl⟩ := aggregate_eq_ok_iff.1 h
  exact ⟨matched, _, found, tallies_rankedCounts, rfl⟩

end Store

/-! ## Counting items -/

section

variable {α : Type} {keysOf : α → List String} {items : List α} {key : String}

theorem length_filter_le_count_flatMap :
    (items.filter fun item => key ∈ keysOf item).length ≤ (items.flatMap keysOf).count key := by
  induction items with
  | nil => exact Nat.le_refl _
  | cons item rest ih =>
    rw [List.flatMap_cons, List.count_append, List.filter_cons]
    by_cases holds : key ∈ keysOf item
    · have := List.count_pos_iff.2 holds
      simp only [holds, decide_true, if_true, List.length_cons]
      omega
    · simp only [holds, decide_false, Bool.false_eq_true, if_false]
      omega

/-- Occurrences are as many as the items they occur in if none has two of them. -/
theorem count_flatMap_eq_iff :
    (items.flatMap keysOf).count key = (items.filter fun item => key ∈ keysOf item).length ↔
      ∀ item ∈ items, ¬ 2 ≤ (keysOf item).count key := by
  induction items with
  | nil => simp
  | cons item rest ih =>
    have atLeast := @length_filter_le_count_flatMap α keysOf rest key
    rw [List.forall_mem_cons, ← ih, List.flatMap_cons, List.count_append, List.filter_cons]
    by_cases holds : key ∈ keysOf item
    · have := List.count_pos_iff.2 holds
      simp only [holds, decide_true, if_true, List.length_cons]
      omega
    · have := List.count_eq_zero_of_not_mem holds
      simp only [holds, decide_false, Bool.false_eq_true, if_false]
      omega

/-- Items parted by their key make up those that have one, if no key is listed twice. -/
theorem perm_flatMap_filter {keyOf : α → Option String} {keys : List String} (nodup : keys.Nodup)
    (listed : ∀ item ∈ items, ∀ key, keyOf item = some key → key ∈ keys) :
    (keys.flatMap fun key => items.filter fun item => keyOf item = some key).Perm
      (items.filter fun item => (keyOf item).isSome) := by
  induction keys generalizing items with
  | nil =>
    have none : ∀ item ∈ items, ¬ (keyOf item).isSome = true := by
      intro item member keyed
      obtain ⟨key, isKey⟩ := Option.isSome_iff_exists.1 keyed
      exact List.not_mem_nil (listed item member key isKey)
    rw [List.filter_eq_nil_iff.2 none]
    exact List.Perm.refl _
  | cons key keys ih =>
    obtain ⟨new, nodup⟩ := List.nodup_cons.1 nodup
    -- The items under the first key stand apart, and the other keys part the others.
    have parted := @ih (items.filter fun item => !decide (keyOf item = some key)) nodup ?_
    · have first : (items.filter fun item => (keyOf item).isSome).filter
          (fun item => keyOf item = some key) = items.filter fun item => keyOf item = some key := by
        rw [List.filter_filter]
        refine List.filter_congr fun item _ => ?_
        cases keyOf item <;> simp
      have same : ∀ later ∈ keys, (items.filter fun item => !decide (keyOf item = some key)).filter
          (fun item => keyOf item = some later) =
            items.filter fun item => keyOf item = some later := by
        intro later member
        have other : later ≠ key := fun same => new (same ▸ member)
        rw [List.filter_filter]
        refine List.filter_congr fun item _ => ?_
        by_cases isLater : keyOf item = some later
        · simp [isLater, other]
        · simp [isLater]
      rw [List.flatMap_congr same, List.filter_comm] at parted
      rw [List.flatMap_cons, ← first]
      exact (parted.append_left _).trans (List.filter_append_perm _ _)
    · intro item member later isLater
      obtain ⟨inItems, other⟩ := List.mem_filter.1 member
      rcases List.mem_cons.1 (listed item inItems later isLater) with rfl | later
      · simp [isLater] at other
      · exact later

end

/-! ## Taking the total out -/

/-- The count that a report shows for a bucket. -/
def shownCount (keys : List String) (total : Nat) (key : String) : Nat :=
  if key ∉ keys then 0 else if key = filteredKey then total else keys.count key

theorem shownCount_mono {few many : List String} {small large : Nat} {key : String}
    (sublist : few.Sublist many) (le : small ≤ large) :
    shownCount few small key ≤ shownCount many large key := by
  by_cases occurs : key ∈ few
  · have also : key ∈ many := sublist.subset occurs
    have count := sublist.count_le key
    simp only [shownCount, occurs, also, not_true, if_false]
    split
    · exact le
    · exact count
  · simp [shownCount, occurs]

/-- Of pairs with different names one is erased by dropping its name. -/
theorem eraseP_name {counts : BucketCounts} {name : String} (nodup : (counts.map Prod.fst).Nodup) :
    counts.eraseP (·.1 = name) = counts.filter (·.1 ≠ name) := by
  induction counts with
  | nil => rfl
  | cons head rest ih =>
    obtain ⟨new, nodup⟩ := List.nodup_cons.1 nodup
    by_cases same : head.1 = name
    · have absent : ∀ pair ∈ rest, pair.1 ≠ name := by
        intro pair member also
        apply new
        rw [same, ← also]
        exact List.mem_map_of_mem member
      rw [List.eraseP_cons_of_pos (by simpa using same),
        List.filter_cons_of_neg (by simpa using same), List.filter_eq_self.2]
      intro pair member
      simpa using absent pair member
    · rw [List.eraseP_cons_of_neg (by simpa using same),
        List.filter_cons_of_pos (by simpa using same), ih nodup]

section

variable {ranked : BucketCounts} {keys : List String} {total : Nat}

theorem takeTotal_of_not_mem (tallies : Tallies ranked keys) (absent : filteredKey ∉ keys) :
    takeTotal (ranked ++ [(filteredKey, total)]) = (total, ranked) := by
  have none : ∀ pair ∈ ranked, ¬ decide (pair.1 = filteredKey) = true := by
    intro pair member same
    rw [decide_eq_true_eq] at same
    exact absent (same ▸ (tallies.mem_iff.1 member).1)
  have notFound : ranked.find? (fun pair => decide (pair.1 = filteredKey)) = Option.none :=
    List.find?_eq_none.2 none
  rw [takeTotal, List.find?_append, notFound]
  simp only [List.find?_singleton, decide_true, if_true, Option.none_or]
  rw [List.eraseP_append_right _ none]
  simp

theorem takeTotal_of_mem (tallies : Tallies ranked keys) (occurs : filteredKey ∈ keys) :
    takeTotal (ranked ++ [(filteredKey, total)]) =
      (keys.count filteredKey, ranked.filter (·.1 ≠ filteredKey) ++ [(filteredKey, total)]) := by
  have listed : (filteredKey, keys.count filteredKey) ∈ ranked := tallies.mem_iff.2 ⟨occurs, rfl⟩
  have found : ranked.find? (fun pair => decide (pair.1 = filteredKey)) =
      some (filteredKey, keys.count filteredKey) := by
    cases first : ranked.find? (fun pair => decide (pair.1 = filteredKey)) with
    | none =>
      have passed := List.find?_eq_none.1 first _ listed
      simp at passed
    | some pair =>
      obtain ⟨key, count⟩ := pair
      have same : key = filteredKey := by simpa using List.find?_some first
      subst same
      rw [(tallies.mem_iff.1 (List.mem_of_find?_eq_some first)).2]
  rw [takeTotal, List.find?_append, found]
  simp only [Option.some_or]
  rw [List.eraseP_append_left (by simp) _ listed, eraseP_name tallies.nodup]

theorem takeTotal_fst (tallies : Tallies ranked keys) :
    (takeTotal (ranked ++ [(filteredKey, total)])).1 =
      if filteredKey ∈ keys then keys.count filteredKey else total := by
  by_cases occurs : filteredKey ∈ keys
  · rw [takeTotal_of_mem tallies occurs, if_pos occurs]
  · rw [takeTotal_of_not_mem tallies occurs, if_neg occurs]

theorem mem_takeTotal_snd (tallies : Tallies ranked keys) {key : String} {count : Nat} :
    (key, count) ∈ (takeTotal (ranked ++ [(filteredKey, total)])).2 ↔
      key ∈ keys ∧ count = shownCount keys total key := by
  by_cases occurs : filteredKey ∈ keys
  · rw [takeTotal_of_mem tallies occurs, List.mem_append, List.mem_filter, tallies.mem_iff,
      List.mem_singleton, Prod.mk.injEq, shownCount]
    by_cases same : key = filteredKey
    · subst same
      simp [occurs]
    · by_cases listed : key ∈ keys
      · simp [listed, same]
      · simp [listed, same]
  · rw [takeTotal_of_not_mem tallies occurs, tallies.mem_iff, shownCount]
    by_cases same : key = filteredKey
    · subst same
      simp [occurs]
    · by_cases listed : key ∈ keys
      · simp [listed, same]
      · simp [listed]

theorem nodup_takeTotal_snd (tallies : Tallies ranked keys) :
    ((takeTotal (ranked ++ [(filteredKey, total)])).2.map Prod.fst).Nodup := by
  by_cases occurs : filteredKey ∈ keys
  · rw [takeTotal_of_mem tallies occurs, List.map_append, List.nodup_append]
    refine ⟨tallies.nodup.sublist (List.filter_sublist.map _), by simp, ?_⟩
    intro key listed other isTotal same
    obtain ⟨pair, member, rfl⟩ := List.mem_map.1 listed
    have name : other = filteredKey := by simpa using isTotal
    rw [name] at same
    simpa [same] using (List.mem_filter.1 member).2
  · rw [takeTotal_of_not_mem tallies occurs]
    exact tallies.nodup

/-- Looking a bucket up among the counts without the total. -/
theorem get?_takeTotal_snd (tallies : Tallies ranked keys) {key : String} :
    ((Table.ofList (takeTotal (ranked ++ [(filteredKey, total)])).2).get? key).getD 0 =
      shownCount keys total key := by
  rw [Table.ofList, Table.get?_insertAll, Table.get?_empty, Option.or_none]
  cases found : Fields.get? (takeTotal (ranked ++ [(filteredKey, total)])).2.reverse key with
  | some count =>
    have listed := List.mem_reverse.1 (Fields.mem_of_get? found)
    exact ((mem_takeTotal_snd tallies).1 listed).2
  | none =>
    by_cases occurs : key ∈ keys
    · have listed : (key, shownCount keys total key) ∈
          (takeTotal (ranked ++ [(filteredKey, total)])).2 :=
        (mem_takeTotal_snd tallies).2 ⟨occurs, rfl⟩
      exact absurd rfl (Fields.get?_eq_none.1 found _ (List.mem_reverse.2 listed))
    · simp [shownCount, occurs]

end

end Clickstream
