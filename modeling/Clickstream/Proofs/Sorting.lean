import Clickstream.Proofs.Comparisons
import Clickstream.Proofs.Holdings
import Clickstream.Proofs.Queries
import Clickstream.Proofs.StoreCalls

/-! # Queries in the order of a field

A query that sorts lists the same items as one that does not. They ascend by the field, with those
that lack it at the end and equal ones by id, as long as the values of the field leave no gap: of
three values the one in between must not be incomparable with both, or equal to both, if the outer
ones differ. Values with a gap come out of order in some store, for the sort takes each pair that it
looks at by itself; three items are enough. What becomes of more of them depends on the way of
sorting, which is insertion here, as it is for short lists.
-/

namespace Clickstream

/-! ## Stores -/

/-- Every item is held under its own type and id. -/
def Store.Keyed (store : Store) : Prop :=
  ∀ type id item, store.load type id = some item → item.type = type ∧ item.id = id

namespace Store

variable {store store' start : Store} {type id : String}

theorem keyed_empty : ({} : Store).Keyed := by
  intro type id item found
  cases found

theorem keyed_of_openOn {files : FileTree} {directory : String}
    (opened : openOn files directory = .ok store) : store.Keyed := by
  obtain ⟨-, -, -, reads⟩ := reads_of_openOn opened
  intro type id item found
  obtain ⟨ofType, ofId, -⟩ := (reads.load type id item).1 found
  exact ⟨ofType, ofId⟩

theorem Keyed.set {item : Option Item} (h : store.Keyed)
    (own : ∀ held, item = some held → held.type = type ∧ held.id = id)
    (load : store'.load = Holdings.set store.load type id item) : store'.Keyed := by
  intro otherType other held found
  rw [load, Holdings.set] at found
  split at found
  · next place => exact place.1.symm ▸ place.2.symm ▸ own held found
  · exact h otherType other held found

theorem Keyed.on {call : StoreCall} {answer : Except StoreError Unit × Store} (h : store.Keyed)
    (made : call.on store = answer) : answer.2.Keyed := by
  subst made
  cases call with
  | save item =>
    rw [StoreCall.on]
    cases saved : store.save item with
    | error e => exact h
    | ok after =>
      refine h.set ?_ (save_eq_ok saved).1
      rintro _ ⟨⟩
      exact ⟨rfl, rfl⟩
  | remove type id =>
    refine h.set ?_ load_remove
    rintro _ ⟨⟩
  | createMapping name text =>
    rw [StoreCall.on]
    cases created : store.createMapping name text with
    | error e => exact h
    | ok after =>
      have same : after.load = store.load := (createMapping_eq_ok created).1
      exact fun type id held found => h type id held (same ▸ found)

/-- Whatever calls are made on a store, also ones that fail. -/
theorem Keyed.after {fails : StoreError → Prop} {calls : List StoreCall} (h : start.Keyed)
    (after : After fails start calls store) : store.Keyed := by
  induction after with
  | start => exact h
  | done _ done ih => exact ih.on done
  | failed _ failed _ ih => exact ih.on failed

/-- Items of one type are listed by id. -/
theorem Keyed.pairwise_all (h : store.Keyed) (type : String) :
    (store.all type).Pairwise fun a b => a.id < b.id := by
  have named : ∀ entry ∈ ((store.items.get? type).getD .empty).entries, entry.2.id = entry.1 := by
    rintro ⟨id, item⟩ member
    refine (h type id item ?_).2
    rw [load_eq_get?]
    exact Table.mem_entries.1 member
  rw [all, Table.values, List.pairwise_map]
  refine ((store.items.get? type).getD .empty).ascending.imp_of_mem ?_
  intro a b inA inB less
  rwa [named a inA, named b inB]

/-! ## Sorting -/

section

variable {α β : Type} {before : α → α → Bool} {items acc : List α} {item : α}

theorem perm_insertBack : (insertBack before item acc).Perm (item :: acc) := by
  induction acc with
  | nil => exact List.Perm.refl _
  | cons last rest ih =>
    rw [insertBack]
    split
    · exact (ih.cons last).trans (List.Perm.swap item last rest)
    · exact List.Perm.refl _

theorem perm_sortBy : (sortBy before items).Perm items := by
  have all : ∀ items acc : List α,
      (items.foldl (fun acc item => insertBack before item acc) acc).Perm (items ++ acc) := by
    intro items
    induction items with
    | nil => exact fun acc => List.Perm.refl acc
    | cons item rest ih =>
      intro acc
      refine (ih _).trans ((perm_insertBack.append_left rest).trans ?_)
      exact List.perm_middle
  refine (List.reverse_perm _).trans ((all items []).trans ?_)
  rw [List.append_nil]

theorem mem_sortBy : item ∈ sortBy before items ↔ item ∈ items := perm_sortBy.mem_iff

/-- Of some items, if one comes before another then the other does not come before it, and every
third one is after the one or before the other. -/
structure Ranks (before : α → α → Bool) (items : List α) : Prop where
  asymm : ∀ a ∈ items, ∀ b ∈ items, before a b = true → before b a = false
  splits : ∀ a ∈ items, ∀ b ∈ items, ∀ c ∈ items, before a c = true →
    before a b = true ∨ before b c = true

/-- One item may stand ahead of another: the other does not come before it, and if neither does then
they keep their places. -/
def Ahead (before : α → α → Bool) (place : α → α → Prop) (a b : α) : Prop :=
  before b a = false ∧ (before a b = false → place a b)

variable {place : α → α → Prop}

/-- The list that is built runs backwards. -/
theorem pairwise_insertBack (ranks : Ranks before (item :: acc))
    (earlier : ∀ a ∈ acc, place a item)
    (sorted : acc.Pairwise fun b a => Ahead before place a b) :
    (insertBack before item acc).Pairwise fun b a => Ahead before place a b := by
  induction acc with
  | nil => exact List.pairwise_singleton _ _
  | cons last rest ih =>
    obtain ⟨first, others⟩ := List.pairwise_cons.1 sorted
    obtain ⟨placed, earlier⟩ := List.forall_mem_cons.1 earlier
    have inItem : item ∈ item :: last :: rest := List.mem_cons_self
    have inLast : last ∈ item :: last :: rest := List.mem_cons_of_mem _ List.mem_cons_self
    have inRest : ∀ a ∈ rest, a ∈ item :: last :: rest :=
      fun a member => List.mem_cons_of_mem _ (List.mem_cons_of_mem _ member)
    rw [insertBack]
    split
    · next less =>
      have fewer : item :: rest ⊆ item :: last :: rest :=
        List.cons_subset_cons _ (List.subset_cons_self _ _)
      refine List.pairwise_cons.2 ⟨fun a member => ?_, ih ⟨?_, ?_⟩ earlier others⟩
      · rcases List.mem_cons.1 (perm_insertBack.mem_iff.1 member) with rfl | member
        · exact ⟨ranks.asymm _ inItem _ inLast less, fun notLess => absurd less (by simp [notLess])⟩
        · exact first a member
      · exact fun a ha b hb => ranks.asymm a (fewer ha) b (fewer hb)
      · exact fun a ha b hb c hc => ranks.splits a (fewer ha) b (fewer hb) c (fewer hc)
    · next notLess =>
      refine List.pairwise_cons.2 ⟨List.forall_mem_cons.2 ⟨?_, fun a member => ?_⟩, sorted⟩
      · exact ⟨Bool.eq_false_iff.2 notLess, fun _ => placed⟩
      · refine ⟨Bool.eq_false_iff.2 fun less => ?_, fun _ => earlier a member⟩
        -- What came before an item further on would come before the last one, or that before it.
        rcases ranks.splits item inItem last inLast a (inRest a member) less with ahead | back
        · exact notLess ahead
        · rw [(first a member).1] at back
          cases back

/-- Sorting puts items in order and keeps those in place that it does not tell apart. -/
theorem pairwise_sortBy (ranks : Ranks before items) (placed : items.Pairwise place) :
    (sortBy before items).Pairwise (Ahead before place) := by
  have all : ∀ rest acc : List α, rest ++ acc ⊆ items → rest.Pairwise place →
      (∀ a ∈ acc, ∀ b ∈ rest, place a b) →
      (acc.Pairwise fun b a => Ahead before place a b) →
      (rest.foldl (fun acc item => insertBack before item acc) acc).Pairwise
        fun b a => Ahead before place a b := by
    intro rest
    induction rest with
    | nil => exact fun acc _ _ _ sorted => sorted
    | cons item rest ih =>
      intro acc inside placed earlier sorted
      obtain ⟨later, placed⟩ := List.pairwise_cons.1 placed
      have here : ∀ a ∈ item :: acc, a ∈ items := by
        intro a member
        refine inside ?_
        rcases List.mem_cons.1 member with rfl | member
        · exact List.mem_cons_self
        · exact List.mem_append_right _ member
      refine ih _ ?_ placed ?_ (pairwise_insertBack ⟨?_, ?_⟩ ?_ sorted)
      · refine fun a member => ?_
        rcases List.mem_append.1 member with member | member
        · exact inside (List.mem_append_left _ (List.mem_cons_of_mem _ member))
        · exact here a (perm_insertBack.mem_iff.1 member)
      · intro a member b inRest
        rcases List.mem_cons.1 (perm_insertBack.mem_iff.1 member) with rfl | member
        · exact later b inRest
        · exact earlier a member b (List.mem_cons_of_mem _ inRest)
      · exact fun a ha b hb => ranks.asymm a (here a ha) b (here b hb)
      · exact fun a ha b hb c hc => ranks.splits a (here a ha) b (here b hb) c (here c hc)
      · exact fun a member => earlier a member item List.mem_cons_self
  rw [sortBy, List.pairwise_reverse]
  exact all items [] (by simp) placed (by simp) List.Pairwise.nil

theorem insertBack_map {f : β → α} {before' : β → β → Bool} {acc : List β} {item : β}
    (same : ∀ b ∈ acc, before (f item) (f b) = before' item b) :
    insertBack before (f item) (acc.map f) = (insertBack before' item acc).map f := by
  induction acc with
  | nil => rfl
  | cons last rest ih =>
    obtain ⟨first, others⟩ := List.forall_mem_cons.1 same
    rw [List.map_cons, insertBack, insertBack, first]
    split
    · rw [ih others, List.map_cons]
    · rfl

/-- Items can be sorted by what they were made from. -/
theorem sortBy_map {f : β → α} {before' : β → β → Bool} {items : List β}
    (same : ∀ a ∈ items, ∀ b ∈ items, before (f a) (f b) = before' a b) :
    sortBy before (items.map f) = (sortBy before' items).map f := by
  have all : ∀ rest acc : List β, rest ⊆ items → acc ⊆ items →
      (rest.map f).foldl (fun acc item => insertBack before item acc) (acc.map f) =
        (rest.foldl (fun acc item => insertBack before' item acc) acc).map f := by
    intro rest
    induction rest with
    | nil => exact fun acc _ _ => rfl
    | cons item rest ih =>
      intro acc inRest inAcc
      obtain ⟨inside, inRest⟩ := List.cons_subset.1 inRest
      rw [List.map_cons, List.foldl_cons, List.foldl_cons,
        insertBack_map fun b member => same item inside b (inAcc member)]
      refine ih _ inRest fun b member => ?_
      rcases List.mem_cons.1 (perm_insertBack.mem_iff.1 member) with rfl | member
      · exact inside
      · exact inAcc member
  rw [sortBy, sortBy, List.map_reverse]
  exact congrArg List.reverse (all items [] (List.Subset.refl _) (List.nil_subset _))

end

/-! ## Sorting by a field -/

variable {names : EvaluatorNames} {c : Condition} {field : String} {a b : Item}
  {matched items : List Item}

theorem query_none_iff : store.query names c none type = .ok matched ↔
    store.matching names c type = .ok matched := by
  rw [query]
  cases store.matching names c type <;> exact Iff.rfl

theorem query_some (found : store.query names c none type = .ok matched) :
    store.query names c (some field) type = .ok (sortBy (precedes field) matched) := by
  rw [query, query_none_iff.1 found]
  rfl

theorem query_none (found : store.query names c none type = .ok matched) :
    matched.Sublist (store.all type) :=
  satisfying_eq_ok (query_none_iff.1 found) ▸ List.filter_sublist

theorem precedes_iff : precedes field a b = true ↔
    ∃ x, a.value? field = some x ∧ ∀ y, b.value? field = some y → x.Less y := by
  rw [precedes]
  cases a.value? field with
  | none => simp
  | some x => cases b.value? field <;> simp [Json.Less]

/-- Items are ranked by a field if its values are consistent. -/
theorem ranks_precedes {values : Json → Prop} (consistent : Json.Consistent values)
    (within : ∀ item ∈ items, ∀ v, item.value? field = some v → values v) :
    Ranks (precedes field) items where
  asymm := by
    intro a _ b _ less
    obtain ⟨x, isX, less⟩ := precedes_iff.1 less
    refine Bool.eq_false_iff.2 fun back => ?_
    obtain ⟨y, isY, back⟩ := precedes_iff.1 back
    exact (less y isY).not_less (back x isX)
  splits := by
    intro a inA b inB c inC less
    obtain ⟨x, isX, less⟩ := precedes_iff.1 less
    cases isY : b.value? field with
    | none => exact .inl (precedes_iff.2 ⟨x, isX, fun y found => by rw [isY] at found; cases found⟩)
    | some y =>
      cases isZ : c.value? field with
      | none => exact .inr (precedes_iff.2 ⟨y, isY, fun z found => by rw [isZ] at found; cases found⟩)
      | some z =>
        have third := consistent x y z (within a inA x isX) (within b inB y isY)
          (within c inC z isZ) (less z isZ)
        refine third.imp (fun ahead => precedes_iff.2 ⟨x, isX, fun y' found => ?_⟩)
          fun ahead => precedes_iff.2 ⟨y, isY, fun z' found => ?_⟩
        · rw [isY] at found; cases found; exact ahead
        · rw [isZ] at found; cases found; exact ahead

end Store

/-- Items in the order of a field. -/
structure Item.SortedBy (field : String) (listed : List Item) : Prop where
  /-- No item stands before one whose value comes before its own. -/
  ascending : listed.Pairwise fun a b => ∀ x y, a.value? field = some x →
    b.value? field = some y → ¬ y.Less x
  /-- Items without the field stand after those with it. -/
  lacking : listed.Pairwise fun a b => a.value? field = none → b.value? field = none
  /-- Items of equal values stand by id. -/
  stable : listed.Pairwise fun a b => ∀ x y, a.value? field = some x →
    b.value? field = some y → x.compare? y = some .eq → a.id < b.id

namespace Store

variable {store : Store} {type field : String} {matched : List Item}

theorem sortedBy_sortBy {values : Json → Prop} (consistent : Json.Consistent values)
    (within : ∀ item ∈ matched, ∀ v, item.value? field = some v → values v)
    (byId : matched.Pairwise fun a b => a.id < b.id) :
    Item.SortedBy field (sortBy (precedes field) matched) := by
  have sorted := pairwise_sortBy (ranks_precedes consistent within) byId
  refine ⟨sorted.imp ?_, sorted.imp ?_, sorted.imp ?_⟩
  · rintro a b ⟨notBack, -⟩ x y isX isY less
    refine absurd (precedes_iff.2 ⟨y, isY, fun x' found => ?_⟩) (Bool.eq_false_iff.1 notBack)
    rw [isX] at found
    cases found
    exact less
  · rintro a b ⟨notBack, -⟩ lacking
    by_contra present
    obtain ⟨y, isY⟩ := Option.ne_none_iff_exists'.1 present
    refine absurd (precedes_iff.2 ⟨y, isY, fun x found => ?_⟩) (Bool.eq_false_iff.1 notBack)
    rw [lacking] at found
    cases found
  · rintro a b ⟨-, stays⟩ x y isX isY equal
    refine stays (Bool.eq_false_iff.2 fun less => ?_)
    obtain ⟨x', isX', less⟩ := precedes_iff.1 less
    rw [isX] at isX'
    cases isX'
    have conflict := (less y isY).symm.trans equal
    cases conflict

/-! ## Values that leave a gap -/

/-- Three items with one field. -/
def threeItems (x y z : Json) : List Item :=
  [⟨"a", "note", [("k", x)]⟩, ⟨"b", "note", [("k", y)]⟩, ⟨"c", "note", [("k", z)]⟩]

/-- A store of three items. -/
def threeStore (x y z : Json) : Store :=
  (threeItems x y z).foldl (fun store item => ((StoreCall.save item).on store).2) {}

/-- A condition that holds of every item, for a store that knows no condition types. -/
def everything : Condition := { typeId := "matchAllCondition" }

theorem matching_everything :
    store.matching (fun _ => none) everything type = .ok (store.all type) := by
  have holds : ∀ item, Predicate.outcome (fun _ => none) item everything = .ok true := by
    intro item
    rw [Predicate.outcome]
    rfl
  simp only [matching, holds, satisfying_ok, List.filter_true]

variable {x y z : Json}

theorem keyed_threeStore : (threeStore x y z).Keyed :=
  ((keyed_empty.on rfl).on rfl).on rfl

theorem matching_threeStore :
    (threeStore x y z).matching (fun _ => none) everything "note" = .ok (threeItems x y z) := by
  have all : (threeStore x y z).all "note" = threeItems x y z := by
    simp only [threeStore, threeItems, List.foldl_cons, List.foldl_nil, StoreCall.on,
      StoreCall.taken, save, writeFile, put, Store.all, bind, Except.bind, pure, Except.pure,
      Table.get?_insert, ↓reduceIte, Option.getD_some]
    rfl
  rw [matching_everything, all]

theorem query_threeStore :
    (threeStore x y z).query (fun _ => none) everything none "note" = .ok (threeItems x y z) := by
  rw [query, matching_threeStore]
  rfl

theorem precedes_three {a b : Item} (isX : a.value? "k" = some x) (isY : b.value? "k" = some y) :
    precedes "k" a b = true ↔ x.Less y := by
  simp only [precedes_iff, isX, isY, Option.some_inj, exists_eq_left', forall_eq']

/-- Of values with a gap between them the last stays behind the first. -/
theorem sortBy_threeItems (notBack : ¬ y.Less x) (notOn : ¬ z.Less y) :
    sortBy (precedes "k") (threeItems x y z) = threeItems x y z := by
  have first : precedes "k" ⟨"b", "note", [("k", y)]⟩ ⟨"a", "note", [("k", x)]⟩ = false :=
    Bool.eq_false_iff.2 fun less => notBack ((precedes_three rfl rfl).1 less)
  have second : precedes "k" ⟨"c", "note", [("k", z)]⟩ ⟨"b", "note", [("k", y)]⟩ = false :=
    Bool.eq_false_iff.2 fun less => notOn ((precedes_three rfl rfl).1 less)
  simp [threeItems, sortBy, insertBack, first, second]

/-- A query that sorts by insertion always lists the items of the one that does not; of many items
with inconsistent values this is not said of other sorts. They are in order in every store whose
values of the field are among some given ones exactly if these are consistent. -/
theorem query_sortedBy_iff (values : Json → Prop) :
    (∀ (store : Store) (names : EvaluatorNames) (c : Condition) (field type : String)
        (matched : List Item), store.query names c none type = .ok matched →
      ∃ listed, store.query names c (some field) type = .ok listed ∧ listed.Perm matched) ∧
    ((∀ (store : Store) (names : EvaluatorNames) (c : Condition) (field type : String)
        (matched : List Item), store.Keyed → store.query names c none type = .ok matched →
        (∀ item ∈ matched, ∀ v, item.value? field = some v → values v) →
        ∃ listed, store.query names c (some field) type = .ok listed ∧
          Item.SortedBy field listed) ↔
      Json.Consistent values) := by
  refine ⟨?_, ?_, ?_⟩
  · intro store names c field type matched found
    exact ⟨_, query_some found, perm_sortBy⟩
  · intro sorts x y z hx hy hz less
    by_contra gap
    obtain ⟨notBefore, notAfter⟩ := not_or.1 gap
    -- The value that should come first stands last, and the third one in front of it.
    have within : ∀ item ∈ threeItems z y x, ∀ v, item.value? "k" = some v → values v := by
      simp only [threeItems, List.forall_mem_cons]
      refine ⟨?_, ?_, ?_, by simp⟩
      all_goals
        rintro v ⟨⟩
        assumption
    obtain ⟨listed, found, sorted⟩ := sorts _ _ _ "k" _ _ keyed_threeStore query_threeStore within
    rw [query_some query_threeStore, sortBy_threeItems notAfter notBefore] at found
    cases found
    have outer := (List.pairwise_cons.1 sorted.ascending).1 _
      (List.mem_cons_of_mem _ List.mem_cons_self)
    exact outer z x rfl rfl less
  · intro consistent store names c field type matched keyed found within
    refine ⟨_, query_some found, sortedBy_sortBy consistent within ?_⟩
    exact (keyed.pairwise_all type).sublist (query_none found)

/-- A number that comes before a text of a greater number stays behind it, since a word that no number
compares with stands between the two. -/
theorem query_ten_word_nine :
    let ten := Json.string "10"
    let word := Json.string "abc"
    let nine := Json.number (.integer 9)
    (threeStore ten word nine).Keyed ∧
      (threeStore ten word nine).query (fun _ => none) everything none "note" =
        .ok (threeItems ten word nine) ∧
      (threeStore ten word nine).query (fun _ => none) everything (some "k") "note" =
        .ok (threeItems ten word nine) ∧
      nine.Less ten ∧ ¬ Item.SortedBy "k" (threeItems ten word nine) := by
  intro ten word nine
  have less : nine.Less ten := by
    rw [Json.Less]
    decide +kernel
  have notBack : ¬ word.Less ten := by
    rw [Json.Less]
    decide +kernel
  have notOn : ¬ nine.Less word := by
    rw [Json.Less]
    decide +kernel
  refine ⟨keyed_threeStore, query_threeStore, ?_, less, fun sorted => ?_⟩
  · rw [query_some query_threeStore, sortBy_threeItems notBack notOn]
  · have outer := (List.pairwise_cons.1 sorted.ascending).1 _
      (List.mem_cons_of_mem _ List.mem_cons_self)
    exact outer ten nine rfl rfl less

end Store

end Clickstream
