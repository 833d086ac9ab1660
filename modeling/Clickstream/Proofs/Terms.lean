import Clickstream.Proofs.Sorting
import Clickstream.Proofs.Tallies

/-! # Counting terms

An aggregate by terms has one bucket for every term that a matching item holds, the fuller buckets
first and equally full ones by term, and the number of all matching items at the end. A bucket
counts how often its term occurs, so its count is the number of the items that hold the term exactly
if none of them repeats it; a list that does is counted more than once.
-/

namespace Clickstream

namespace Json

/-- A value holds a term: a text is one, the text of any other value but null is one, and a list
holds those of its elements. -/
inductive Holds : Json → String → Prop where
  | string (s : String) : Holds (.string s) s
  | bool (b : Bool) : Holds (.bool b) (Json.bool b).compact
  | number (n : Number) : Holds (.number n) (Json.number n).compact
  | object (fields : Fields Json) : Holds (.object fields) (Json.object fields).compact
  | element {items : List Json} {item : Json} {term : String} : item ∈ items → Holds item term →
      Holds (.array items) term

/-- A list repeats a term: two of its elements hold it, or one of them repeats it. -/
inductive Repeats : Json → String → Prop where
  | elements {items : List Json} {a b : Json} {term : String} : [a, b].Sublist items →
      Holds a term → Holds b term → Repeats (.array items) term
  | within {items : List Json} {item : Json} {term : String} : item ∈ items → Repeats item term →
      Repeats (.array items) term

variable {term : String}

mutual

theorem mem_terms : ∀ value : Json, term ∈ value.terms ↔ value.Holds term
  | .null => by
    rw [terms]
    exact iff_of_false List.not_mem_nil nofun
  | .string s => by
    rw [terms, List.mem_singleton]
    exact ⟨fun same => same ▸ .string s, fun | .string _ => rfl⟩
  | .bool b => by
    rw [terms, List.mem_singleton]
    · exact ⟨fun same => same ▸ .bool b, fun | .bool _ => rfl⟩
    all_goals exact nofun
  | .number n => by
    rw [terms, List.mem_singleton]
    · exact ⟨fun same => same ▸ .number n, fun | .number _ => rfl⟩
    all_goals exact nofun
  | .object fields => by
    rw [terms, List.mem_singleton]
    · exact ⟨fun same => same ▸ .object fields, fun | .object _ => rfl⟩
    all_goals exact nofun
  | .array items => by
    rw [terms, mem_termsOfItems items]
    exact ⟨fun ⟨item, member, holds⟩ => .element member holds,
      fun | .element member holds => ⟨_, member, holds⟩⟩

theorem mem_termsOfItems :
    ∀ items : List Json, term ∈ termsOfItems items ↔ ∃ item ∈ items, item.Holds term
  | [] => by simp [termsOfItems]
  | item :: rest => by
    rw [termsOfItems, List.mem_append, mem_terms item, mem_termsOfItems rest]
    simp

end

instance (value : Json) (term : String) : Decidable (value.Holds term) :=
  decidable_of_iff _ (mem_terms value)

private theorem not_two_le_count_singleton {s : String} : ¬ 2 ≤ [s].count term := by
  have atMost := @List.count_le_length _ _ term [s]
  rw [List.length_singleton] at atMost
  omega

private theorem pair_sublist_cons {a b item : Json} {rest : List Json} :
    [a, b].Sublist (item :: rest) ↔ [a, b].Sublist rest ∨ a = item ∧ b ∈ rest := by
  rw [List.sublist_cons_iff]
  simp

mutual

/-- A term is listed more than once exactly if the value repeats it. -/
theorem two_le_count_terms : ∀ value : Json, 2 ≤ value.terms.count term ↔ value.Repeats term
  | .null => by
    rw [terms]
    exact iff_of_false (by simp) nofun
  | .string s => by
    rw [terms]
    exact iff_of_false not_two_le_count_singleton nofun
  | .bool b => by
    rw [terms]
    · exact iff_of_false not_two_le_count_singleton nofun
    all_goals exact nofun
  | .number n => by
    rw [terms]
    · exact iff_of_false not_two_le_count_singleton nofun
    all_goals exact nofun
  | .object fields => by
    rw [terms]
    · exact iff_of_false not_two_le_count_singleton nofun
    all_goals exact nofun
  | .array items => by
    rw [terms, two_le_count_termsOfItems items]
    constructor
    · rintro (⟨item, member, repeats⟩ | ⟨a, b, sublist, inA, inB⟩)
      · exact .within member repeats
      · exact .elements sublist inA inB
    · rintro (⟨sublist, inA, inB⟩ | ⟨member, repeats⟩)
      · exact .inr ⟨_, _, sublist, inA, inB⟩
      · exact .inl ⟨_, member, repeats⟩

theorem two_le_count_termsOfItems : ∀ items : List Json, 2 ≤ (termsOfItems items).count term ↔
    (∃ item ∈ items, item.Repeats term) ∨
      ∃ a b, [a, b].Sublist items ∧ a.Holds term ∧ b.Holds term
  | [] => by simp [termsOfItems]
  | item :: rest => by
    have here := two_le_count_terms item
    have there := two_le_count_termsOfItems rest
    have once : ∀ l : List String, 0 < l.count term ↔ term ∈ l := fun l => List.count_pos_iff
    have heldHere := (once _).trans (mem_terms item)
    have heldThere := (once _).trans (mem_termsOfItems rest)
    rw [termsOfItems, List.count_append]
    simp only [List.exists_mem_cons_iff, pair_sublist_cons]
    constructor
    · intro twice
      by_cases inItem : 2 ≤ item.terms.count term
      · exact .inl (.inl (here.1 inItem))
      · by_cases inRest : 2 ≤ (termsOfItems rest).count term
        · rcases there.1 inRest with repeats | ⟨a, b, sublist, holds⟩
          · exact .inl (.inr repeats)
          · exact .inr ⟨a, b, .inl sublist, holds⟩
        · obtain ⟨b, member, inB⟩ := heldThere.1 (by omega)
          exact .inr ⟨item, b, .inr ⟨rfl, member⟩, heldHere.1 (by omega), inB⟩
    · rintro ((repeats | repeats) | ⟨a, b, sublist | ⟨rfl, member⟩, inA, inB⟩)
      · have := here.2 repeats
        omega
      · have := there.2 (.inl repeats)
        omega
      · have := there.2 (.inr ⟨a, b, sublist, inA, inB⟩)
        omega
      · have := heldHere.2 inA
        have := heldThere.2 ⟨b, member, inB⟩
        omega

end

end Json

namespace Item

variable {item : Item} {field term : String}

/-- The item holds a term at a field. -/
def HoldsTerm (item : Item) (field term : String) : Prop :=
  ∃ value, item.value? field = some value ∧ value.Holds term

/-- The item repeats a term at a field. -/
def RepeatsTerm (item : Item) (field term : String) : Prop :=
  ∃ value, item.value? field = some value ∧ value.Repeats term

theorem mem_bucketsOf : term ∈ Store.bucketsOf .terms field item ↔ item.HoldsTerm field term := by
  rw [Store.bucketsOf, HoldsTerm]
  cases item.value? field with
  | none => simp
  | some value => simp [Json.mem_terms]

theorem two_le_count_bucketsOf :
    2 ≤ (Store.bucketsOf .terms field item).count term ↔ item.RepeatsTerm field term := by
  rw [Store.bucketsOf, RepeatsTerm]
  cases item.value? field with
  | none => simp
  | some value => simp [Json.two_le_count_terms]

instance (item : Item) (field term : String) : Decidable (item.HoldsTerm field term) :=
  decidable_of_iff _ mem_bucketsOf

end Item

/-- Buckets of the terms that some items hold at a field. -/
structure TermBuckets (field : String) (matched : List Item) (ranked : BucketCounts) : Prop where
  mem_iff : ∀ term, term ∈ ranked.map Prod.fst ↔ ∃ item ∈ matched, item.HoldsTerm field term
  nodup : (ranked.map Prod.fst).Nodup
  /-- Fuller buckets come first, and equally full ones by term. -/
  descending : ranked.Pairwise fun a b => b.2 < a.2 ∨ a.2 = b.2 ∧ a.1 < b.1

namespace Store

/-! ## Ranking -/

theorem rankedBefore_iff {a b : String × Nat} :
    rankedBefore a b = true ↔ b.2 < a.2 ∨ a.2 = b.2 ∧ a.1 ≤ b.1 := by
  rw [rankedBefore, decide_eq_true_iff]

theorem rankedBefore_trans {a b c : String × Nat} (first : rankedBefore a b = true)
    (second : rankedBefore b c = true) : rankedBefore a c = true := by
  rw [rankedBefore_iff] at *
  rcases first with more | ⟨same, le⟩
  · rcases second with more' | ⟨same', -⟩
    · exact .inl (Nat.lt_trans more' more)
    · exact .inl (same' ▸ more)
  · rcases second with more' | ⟨same', le'⟩
    · exact .inl (same.symm ▸ more')
    · exact .inr ⟨same.trans same', String.le_trans le le'⟩

theorem rankedBefore_total (a b : String × Nat) :
    (rankedBefore a b || rankedBefore b a) = true := by
  rw [Bool.or_eq_true, rankedBefore_iff, rankedBefore_iff]
  rcases Nat.lt_trichotomy a.2 b.2 with less | same | more
  · exact .inr (.inl less)
  · rcases String.le_total a.1 b.1 with le | ge
    · exact .inl (.inr ⟨same, le⟩)
    · exact .inr (.inr ⟨same.symm, ge⟩)
  · exact .inl (.inl more)

theorem pairwise_rankedCounts {keys : List String} :
    (rankedCounts .terms keys).Pairwise fun a b => b.2 < a.2 ∨ a.2 = b.2 ∧ a.1 < b.1 := by
  have sorted : (rankedCounts .terms keys).Pairwise fun a b => rankedBefore a b = true :=
    @List.pairwise_mergeSort _ rankedBefore (fun _ _ _ => rankedBefore_trans)
      rankedBefore_total _
  have different := List.pairwise_map.1 (@tallies_rankedCounts .terms keys).nodup
  refine (sorted.and different).imp fun ⟨before, other⟩ => ?_
  refine (rankedBefore_iff.1 before).imp_right fun ⟨same, le⟩ => ⟨same, ?_⟩
  exact String.not_le.1 fun ge => other (String.le_antisymm le ge)

/-! ## What an aggregate by terms lists -/

variable {store : Store} {names : EvaluatorNames} {c : Condition} {field type : String}
  {counts : BucketCounts} {matched : List Item}

theorem termBuckets_rankedCounts : TermBuckets field matched
    (rankedCounts .terms (matched.flatMap (bucketsOf .terms field))) where
  mem_iff term := by
    simp only [tallies_rankedCounts.mem_names, List.mem_flatMap, Item.mem_bucketsOf]
  nodup := tallies_rankedCounts.nodup
  descending := pairwise_rankedCounts

/-- An aggregate by terms has a bucket for exactly the terms that matching items hold, ranked by
count and then by term, and the total last. A bucket counts at least the items that hold its term,
and exactly these if and only if none of them repeats the term. -/
theorem aggregate_terms_iff (h : store.aggregate names c .terms field type = .ok counts) :
    ∃ matched ranked, store.query names c none type = .ok matched ∧
      counts = ranked ++ [(filteredKey, matched.length)] ∧ TermBuckets field matched ranked ∧
      ∀ term count, (term, count) ∈ ranked →
        (matched.filter fun item => item.HoldsTerm field term).length ≤ count ∧
        (count = (matched.filter fun item => item.HoldsTerm field term).length ↔
          ∀ item ∈ matched, ¬ item.RepeatsTerm field term) := by
  obtain ⟨matched, found, rfl⟩ := aggregate_eq_ok_iff.1 h
  refine ⟨matched, _, query_none_iff.2 found, rfl, termBuckets_rankedCounts, ?_⟩
  intro term count listed
  obtain ⟨-, rfl⟩ := tallies_rankedCounts.mem_iff.1 listed
  have holders : (matched.filter fun item => item.HoldsTerm field term) =
      matched.filter fun item => term ∈ bucketsOf .terms field item := by
    simp only [Item.mem_bucketsOf]
  rw [holders]
  refine ⟨length_filter_le_count_flatMap, count_flatMap_eq_iff.trans ?_⟩
  simp only [Item.two_le_count_bucketsOf]

/-! ## A term that is repeated -/

/-- Three notes that hold one term, the last of them twice. -/
def repeating : Store :=
  threeStore (.array [.array [.string "x"], .null]) (.string "x")
    (.array [.string "x", .string "x"])

theorem aggregate_repeating : repeating.aggregate (fun _ => none) everything .terms "k" "note" =
    .ok [("x", 4), (filteredKey, 3)] := by
  refine aggregate_eq_ok_iff.2 ⟨_, matching_threeStore, ?_⟩
  have counted : (["x", "x", "x", "x"].foldl countIn {}).entries = [("x", 4)] := rfl
  have ranked : rankedCounts .terms ["x", "x", "x", "x"] = [("x", 4)] := by
    rw [rankedCounts, counted, List.mergeSort_singleton]
  exact congrArg (· ++ [(filteredKey, 3)]) ranked.symm

theorem aggregate_terms_iff_repeating :
    repeating.aggregate (fun _ => none) everything .terms "k" "note" =
        .ok [("x", 4), (filteredKey, 3)] ∧
      ∃ matched ranked, repeating.query (fun _ => none) everything none "note" = .ok matched ∧
        [("x", 4), (filteredKey, 3)] = ranked ++ [(filteredKey, matched.length)] ∧
        TermBuckets "k" matched ranked ∧ ∀ term count, (term, count) ∈ ranked →
          (matched.filter fun item => item.HoldsTerm "k" term).length ≤ count ∧
          (count = (matched.filter fun item => item.HoldsTerm "k" term).length ↔
            ∀ item ∈ matched, ¬ item.RepeatsTerm "k" term) :=
  ⟨aggregate_repeating, aggregate_terms_iff aggregate_repeating⟩

/-- The bucket of a repeated term counts four, though only three items match. -/
theorem repeated_exceeds_total :
    ∃ matched, repeating.query (fun _ => none) everything none "note" = .ok matched ∧
      repeating.aggregate (fun _ => none) everything .terms "k" "note" =
        .ok [("x", 4), (filteredKey, matched.length)] ∧
      (matched.filter fun item => item.HoldsTerm "k" "x").length = 3 ∧ matched.length = 3 :=
  ⟨_, query_threeStore, aggregate_repeating, by decide, rfl⟩

end Store

end Clickstream
