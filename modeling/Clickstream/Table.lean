/-! # Tables

Finite maps from names to values. `Fields` is the bare list of pairs, as an object of a document
holds them; `Table` is such a list whose names ascend strictly, so that two tables with the same
answers are equal and every listing of a table runs in the order of its names, code point by code
point.
-/

namespace Clickstream

universe u v w

/-- Pairs of a name and a value. The first pair of a name is the one that counts. -/
abbrev Fields (V : Type u) := List (String × V)

namespace Fields

variable {V : Type u}

/-- The value under a name. -/
def get? (fields : Fields V) (name : String) : Option V :=
  match fields with
  | [] => none
  | (key, value) :: rest => if key = name then some value else get? rest name

/-- Put a value under a name: at the place of an equal name, else before the first greater one. -/
def insert (fields : Fields V) (name : String) (value : V) : Fields V :=
  match fields with
  | [] => [(name, value)]
  | (key, old) :: rest =>
    if key = name then (name, value) :: rest
    else if name < key then (name, value) :: (key, old) :: rest
    else (key, old) :: insert rest name value

/-- Drop every pair of a name. -/
def erase (fields : Fields V) (name : String) : Fields V :=
  fields.filter (fun pair => pair.1 ≠ name)

/-- Pairs in the order of their names, the last of equal names kept. -/
def sorted (fields : Fields V) : Fields V :=
  fields.foldl (fun acc pair => insert acc pair.1 pair.2) []

/-- The names ascend strictly. -/
def Ascending (fields : Fields V) : Prop :=
  fields.Pairwise (fun a b => a.1 < b.1)

theorem mem_insert {fields : Fields V} {name : String} {value : V} {pair : String × V}
    (h : pair ∈ fields.insert name value) : pair = (name, value) ∨ pair ∈ fields := by
  induction fields with
  | nil => simpa [insert] using h
  | cons head rest ih =>
    obtain ⟨key, old⟩ := head
    rw [insert] at h
    split at h
    · rcases List.mem_cons.1 h with h | h
      · exact .inl h
      · exact .inr (List.mem_cons_of_mem _ h)
    · split at h
      · exact List.mem_cons.1 h
      · rcases List.mem_cons.1 h with h | h
        · exact .inr (h ▸ List.mem_cons_self)
        · exact (ih h).imp_right (List.mem_cons_of_mem _)

theorem Ascending.insert {fields : Fields V} (h : fields.Ascending) (name : String) (value : V) :
    (fields.insert name value).Ascending := by
  induction fields with
  | nil => simp [Fields.insert, Ascending]
  | cons head rest ih =>
    obtain ⟨key, old⟩ := head
    obtain ⟨before, tail⟩ := List.pairwise_cons.1 h
    rw [Fields.insert]
    split
    · next same => exact List.pairwise_cons.2 ⟨by simpa [← same] using before, tail⟩
    · next other =>
      split
      · next less =>
        refine List.pairwise_cons.2 ⟨fun pair mem => ?_, h⟩
        rcases List.mem_cons.1 mem with rfl | mem
        · exact less
        · exact String.lt_trans less (before pair mem)
      · next notLess =>
        refine List.pairwise_cons.2 ⟨fun pair mem => ?_, ih tail⟩
        rcases mem_insert mem with rfl | mem
        · exact String.not_le.1 (fun le => other (String.le_antisymm (String.not_lt.1 notLess) le))
        · exact before pair mem

theorem Ascending.filter {fields : Fields V} (h : fields.Ascending) (keep : String × V → Bool) :
    Ascending (List.filter keep fields) :=
  List.Pairwise.filter keep h

theorem Ascending.mapValues {W : Type v} {fields : Fields V} (h : fields.Ascending)
    (f : String → V → W) : Ascending (fields.map fun pair => (pair.1, f pair.1 pair.2)) :=
  List.pairwise_map.2 h

end Fields

/-- A finite map from names to values, listed in strictly ascending order of the names. -/
structure Table (V : Type u) where
  entries : Fields V
  /-- The order of the names. -/
  ascending : entries.Ascending

namespace Table

variable {V : Type u} {W : Type v}

def empty : Table V := ⟨[], List.Pairwise.nil⟩

instance : EmptyCollection (Table V) := ⟨empty⟩

instance : Inhabited (Table V) := ⟨empty⟩

/-- The value under a name. -/
def get? (table : Table V) (name : String) : Option V := table.entries.get? name

/-- Whether a name is listed. -/
def contains (table : Table V) (name : String) : Bool := (table.get? name).isSome

/-- Put a value under a name, in place of an earlier one. -/
def insert (table : Table V) (name : String) (value : V) : Table V :=
  ⟨table.entries.insert name value, table.ascending.insert name value⟩

/-- Keep the pairs that pass a test. -/
def filter (table : Table V) (keep : String → V → Bool) : Table V :=
  ⟨List.filter (fun pair => keep pair.1 pair.2) table.entries, table.ascending.filter _⟩

def erase (table : Table V) (name : String) : Table V :=
  table.filter fun key _ => key ≠ name

def map (table : Table V) (f : String → V → W) : Table W :=
  ⟨table.entries.map fun pair => (pair.1, f pair.1 pair.2), table.ascending.mapValues f⟩

/-- The names, ascending. -/
def keys (table : Table V) : List String := table.entries.map (·.1)

/-- The values, in the order of their names. -/
def values (table : Table V) : List V := table.entries.map (·.2)

def size (table : Table V) : Nat := table.entries.length

/-- Whether there is no entry. -/
def isEmpty (table : Table V) : Bool := table.entries.isEmpty

/-- Insert pairs one after the other, so the last of equal names stays. -/
def insertAll (table : Table V) (pairs : Fields V) : Table V :=
  pairs.foldl (fun acc pair => acc.insert pair.1 pair.2) table

/-- The table of a list of pairs, the last of equal names kept. -/
def ofList (pairs : Fields V) : Table V := empty.insertAll pairs

end Table

end Clickstream
