import Clickstream.IdSet

/-! # What tables and id sets hold

Every operation on tables and id sets, said by the answers that it changes. A table is determined by
its answers and an id set by its members, so these lemmas are all that later proofs use.
-/

namespace Clickstream

universe u v

namespace Fields

variable {V : Type u} {fields : Fields V} {name key : String} {value : V}

@[simp] theorem get?_nil : get? ([] : Fields V) name = none := rfl

theorem get?_cons {pair : String × V} :
    get? (pair :: fields) name = if pair.1 = name then some pair.2 else get? fields name := rfl

@[simp] theorem get?_insert :
    (fields.insert name value).get? key = if key = name then some value else fields.get? key := by
  induction fields with
  | nil => simp only [insert, get?_cons, get?_nil, eq_comm]
  | cons head rest ih =>
    rw [insert]
    split
    · next same => simp only [get?_cons, same]; grind
    · split
      · simp only [get?_cons, eq_comm]
      · simp only [get?_cons, ih]; grind

theorem mem_of_get? (h : fields.get? name = some value) : (name, value) ∈ fields := by
  induction fields with
  | nil => simp at h
  | cons head rest ih =>
    obtain ⟨first, old⟩ := head
    rw [get?_cons] at h
    split at h
    · next same => obtain rfl := Option.some.inj h; simp [← same]
    · exact List.mem_cons_of_mem _ (ih h)

theorem get?_eq_none : fields.get? name = none ↔ ∀ pair ∈ fields, pair.1 ≠ name := by
  induction fields with
  | nil => simp
  | cons head rest ih => rw [get?_cons]; split <;> simp_all

theorem Ascending.get?_of_mem (h : fields.Ascending) (member : (name, value) ∈ fields) :
    fields.get? name = some value := by
  induction fields with
  | nil => simp at member
  | cons head rest ih =>
    obtain ⟨before, tail⟩ := List.pairwise_cons.1 h
    rw [get?_cons]
    rcases List.mem_cons.1 member with rfl | member
    · simp
    · have other : head.1 ≠ name := fun same => String.lt_irrefl _ (same ▸ before _ member)
      rw [if_neg other]
      exact ih tail member

theorem Ascending.mem_iff (h : fields.Ascending) :
    (name, value) ∈ fields ↔ fields.get? name = some value :=
  ⟨h.get?_of_mem, mem_of_get?⟩

theorem Ascending.get?_filter (h : fields.Ascending) (keep : String × V → Bool) :
    get? (List.filter keep fields) name = (fields.get? name).filter fun v => keep (name, v) := by
  refine Option.ext fun v => ?_
  rw [Option.filter_eq_some_iff, ← (h.filter keep).mem_iff, ← h.mem_iff, List.mem_filter]

/-- A test of the names alone needs no order. -/
theorem get?_filter_name (keep : String → Bool) :
    get? (List.filter (fun pair => keep pair.1) fields) name =
      if keep name then fields.get? name else none := by
  induction fields with
  | nil => simp
  | cons head rest ih =>
    rw [List.filter_cons, get?_cons]
    split
    · rw [get?_cons, ih]; grind
    · rw [ih]; grind

theorem get?_map {W : Type v} (f : String → V → W) :
    get? (List.map (fun pair => (pair.1, f pair.1 pair.2)) fields) name =
      (fields.get? name).map (f name) := by
  induction fields with
  | nil => rfl
  | cons head rest ih =>
    rw [List.map_cons, get?_cons, get?_cons, ih]
    split
    · next same => simp only [← same, Option.map_some]
    · rfl

theorem get?_append {other : Fields V} :
    get? (fields ++ other) name = (fields.get? name).or (other.get? name) := by
  induction fields with
  | nil => simp
  | cons head rest ih => rw [List.cons_append, get?_cons, get?_cons, ih]; split <;> simp

/-- Of pairs put in one after the other the last of a name counts. -/
theorem get?_foldl_insert {pairs : Fields V} :
    get? (pairs.foldl (fun acc pair => acc.insert pair.1 pair.2) fields) name =
      (get? pairs.reverse name).or (fields.get? name) := by
  induction pairs generalizing fields with
  | nil => simp
  | cons head rest ih =>
    rw [List.foldl_cons, ih, get?_insert, List.reverse_cons, get?_append, get?_cons, get?_nil,
      Option.or_assoc]
    grind

theorem get?_sorted : fields.sorted.get? name = get? fields.reverse name := by
  rw [sorted, get?_foldl_insert, get?_nil, Option.or_none]

theorem ascending_sorted : fields.sorted.Ascending := by
  have step : ∀ (pairs acc : Fields V), acc.Ascending →
      (pairs.foldl (fun acc pair => acc.insert pair.1 pair.2) acc).Ascending := by
    intro pairs
    induction pairs with
    | nil => exact fun _ h => h
    | cons head rest ih => exact fun acc h => ih _ (h.insert _ _)
  exact step fields [] List.Pairwise.nil

theorem Ascending.ext {a b : Fields V} (ha : a.Ascending) (hb : b.Ascending)
    (h : ∀ name, a.get? name = b.get? name) : a = b := by
  have order : ∀ (x y : String × V), x ∈ a → y ∈ b → x.1 < y.1 → y.1 < x.1 → x = y :=
    fun x y _ _ less greater => absurd (String.lt_trans less greater) (String.lt_irrefl _)
  -- Ascending names do not repeat, so lists with the same members are permutations.
  refine List.Perm.eq_of_pairwise order ha hb ?_
  have nodup {c : Fields V} (hc : c.Ascending) : c.Nodup := by
    refine hc.imp fun less same => ?_
    subst same
    exact String.lt_irrefl _ less
  refine (List.perm_ext_iff_of_nodup (nodup ha) (nodup hb)).2 fun ⟨name, value⟩ => ?_
  rw [ha.mem_iff, hb.mem_iff, h name]

theorem Ascending.get?_reverse (h : fields.Ascending) :
    get? fields.reverse name = fields.get? name := by
  refine Option.ext fun v => ⟨fun found => ?_, fun found => ?_⟩
  · exact h.get?_of_mem (List.mem_reverse.1 (mem_of_get? found))
  · cases back : get? fields.reverse name with
    | none =>
      have listed := List.mem_reverse.2 (mem_of_get? found)
      exact absurd rfl (get?_eq_none.1 back (name, v) listed)
    | some w => rw [← found, ← h.get?_of_mem (List.mem_reverse.1 (mem_of_get? back))]

theorem Ascending.sorted_eq (h : fields.Ascending) : fields.sorted = fields :=
  ascending_sorted.ext h fun _ => get?_sorted.trans h.get?_reverse

end Fields

namespace Table

variable {V : Type u} {W : Type v} {table : Table V} {name key : String} {value : V}

@[ext] theorem ext {a b : Table V} (h : ∀ name, a.get? name = b.get? name) : a = b := by
  have same : a.entries = b.entries := a.ascending.ext b.ascending h
  cases a; cases b; cases same; rfl

@[simp] theorem get?_empty : (empty : Table V).get? name = none := rfl

@[simp] theorem get?_default : ({} : Table V).get? name = none := rfl

@[simp] theorem get?_insert :
    (table.insert name value).get? key = if key = name then some value else table.get? key :=
  Fields.get?_insert

@[simp] theorem get?_filter (keep : String → V → Bool) :
    (table.filter keep).get? name = (table.get? name).filter (keep name) :=
  table.ascending.get?_filter _

@[simp] theorem get?_erase :
    (table.erase key).get? name = if name = key then none else table.get? name := by
  rw [erase, get?_filter]
  split <;> cases table.get? name <;> simp_all [Option.filter]

@[simp] theorem get?_map (f : String → V → W) :
    (table.map f).get? name = (table.get? name).map (f name) :=
  Fields.get?_map f

theorem get?_insertAll {pairs : Fields V} :
    (table.insertAll pairs).get? name = (Fields.get? pairs.reverse name).or (table.get? name) := by
  rw [insertAll]
  induction pairs generalizing table with
  | nil => simp
  | cons head rest ih =>
    rw [List.foldl_cons, ih, get?_insert, List.reverse_cons, Fields.get?_append, Fields.get?_cons,
      Fields.get?_nil, Option.or_assoc]
    grind

theorem contains_iff : table.contains name = true ↔ ∃ value, table.get? name = some value := by
  rw [contains, Option.isSome_iff_exists]

theorem mem_entries : (name, value) ∈ table.entries ↔ table.get? name = some value :=
  table.ascending.mem_iff

theorem mem_values : value ∈ table.values ↔ ∃ name, table.get? name = some value := by
  simp only [values, List.mem_map, Prod.exists, exists_eq_right, mem_entries]

theorem mem_keys : name ∈ table.keys ↔ table.contains name = true := by
  simp only [keys, List.mem_map, Prod.exists, exists_and_right, exists_eq_right, mem_entries,
    contains_iff]

/-- Of pairs put in one after the other, every name has one of them or what it had before. -/
theorem get?_insertAll_cases {pairs : Fields V}
    (h : (table.insertAll pairs).get? name = some value) :
    (name, value) ∈ pairs ∨ table.get? name = some value := by
  rw [get?_insertAll, Option.or_eq_some_iff] at h
  exact h.imp (fun found => List.mem_reverse.1 (Fields.mem_of_get? found)) And.right

end Table

namespace IdSet

variable {a b : IdSet} {id other : String}

theorem mem_toList : id ∈ a.toList ↔ id ∈ a := Iff.rfl

theorem nodup_toList : a.toList.Nodup := by
  refine a.ascending.imp fun less same => ?_
  subst same
  exact String.lt_irrefl _ less

@[ext] theorem ext (h : ∀ id, id ∈ a ↔ id ∈ b) : a = b := by
  have order : ∀ x y, x ∈ a.toList → y ∈ b.toList → x < y → y < x → x = y :=
    fun x y _ _ less greater => absurd (String.lt_trans less greater) (String.lt_irrefl _)
  have same : a.toList = b.toList := List.Perm.eq_of_pairwise order a.ascending b.ascending
    ((List.perm_ext_iff_of_nodup nodup_toList nodup_toList).2 h)
  cases a; cases b; cases same; rfl

@[simp] theorem not_mem_empty : id ∉ empty := List.not_mem_nil

@[simp] theorem not_mem_default : id ∉ ({} : IdSet) := List.not_mem_nil

@[simp] theorem contains_iff : a.contains id = true ↔ id ∈ a := decide_eq_true_iff

@[simp] theorem mem_insert : id ∈ a.insert other ↔ id = other ∨ id ∈ a := mem_insertSorted

private theorem mem_foldl_insert {ids : List String} :
    id ∈ ids.foldl insert a ↔ id ∈ ids ∨ id ∈ a := by
  induction ids generalizing a with
  | nil => simp
  | cons head rest ih => rw [List.foldl_cons, ih, mem_insert, List.mem_cons]; grind

@[simp] theorem mem_ofList {ids : List String} : id ∈ ofList ids ↔ id ∈ ids := by
  simp [ofList, mem_foldl_insert]

@[simp] theorem mem_filter {keep : String → Bool} : id ∈ a.filter keep ↔ id ∈ a ∧ keep id = true :=
  List.mem_filter

@[simp] theorem mem_diff : id ∈ a.diff b ↔ id ∈ a ∧ id ∉ b := by
  simp only [diff, mem_filter, Bool.not_eq_true', ← Bool.not_eq_true, contains_iff]

theorem meets_iff : a.meets b = true ↔ ∃ id, id ∈ a ∧ id ∈ b := by
  simp only [meets, List.any_eq_true, contains_iff, mem_toList]

theorem isEmpty_iff : a.isEmpty = true ↔ ∀ id, id ∉ a := by
  rw [isEmpty, List.isEmpty_iff, List.eq_nil_iff_forall_not_mem]; rfl

end IdSet

theorem Table.nodup_keys {V : Type u} {table : Table V} : table.keys.Nodup :=
  @IdSet.nodup_toList table.idSet

@[simp] theorem Table.mem_idSet {V : Type u} {table : Table V} {id : String} :
    id ∈ table.idSet ↔ table.contains id = true :=
  Table.mem_keys

end Clickstream
