import Clickstream.Table

/-! # Sets of ids

Finite sets of strings as strictly ascending lists, so that equal sets are equal lists and a set
is always listed in one order.
-/

namespace Clickstream

universe u

/-- A finite set of ids. -/
structure IdSet where
  toList : List String
  /-- The order of the members. -/
  ascending : toList.Pairwise (· < ·)
  deriving DecidableEq

namespace IdSet

def empty : IdSet := ⟨[], List.Pairwise.nil⟩

instance : EmptyCollection IdSet := ⟨empty⟩

instance : Inhabited IdSet := ⟨empty⟩

instance : Membership String IdSet := ⟨fun set id => id ∈ set.toList⟩

instance (set : IdSet) (id : String) : Decidable (id ∈ set) :=
  inferInstanceAs (Decidable (id ∈ set.toList))

/-- Whether an id is a member. -/
def contains (set : IdSet) (id : String) : Bool := decide (id ∈ set)

/-- Put an id into its place among ascending ids. -/
def insertSorted (id : String) : List String → List String
  | [] => [id]
  | head :: rest =>
    if head = id then head :: rest
    else if id < head then id :: head :: rest
    else head :: insertSorted id rest

theorem mem_insertSorted {id other : String} {ids : List String} :
    other ∈ insertSorted id ids ↔ other = id ∨ other ∈ ids := by
  induction ids with
  | nil => simp [insertSorted]
  | cons head rest ih =>
    rw [insertSorted]
    split
    · next same => subst same; simp
    · split
      · simp
      · simp only [List.mem_cons, ih]; grind

theorem pairwise_insertSorted {id : String} {ids : List String} (h : ids.Pairwise (· < ·)) :
    (insertSorted id ids).Pairwise (· < ·) := by
  induction ids with
  | nil => simp [insertSorted]
  | cons head rest ih =>
    obtain ⟨before, tail⟩ := List.pairwise_cons.1 h
    rw [insertSorted]
    split
    · exact h
    · next other =>
      split
      · next less =>
        refine List.pairwise_cons.2 ⟨fun x mem => ?_, h⟩
        rcases List.mem_cons.1 mem with rfl | mem
        · exact less
        · exact String.lt_trans less (before x mem)
      · next notLess =>
        refine List.pairwise_cons.2 ⟨fun x mem => ?_, ih tail⟩
        rcases mem_insertSorted.1 mem with rfl | mem
        · exact String.not_le.1 (fun le => other (String.le_antisymm (String.not_lt.1 notLess) le))
        · exact before x mem

def insert (set : IdSet) (id : String) : IdSet :=
  ⟨insertSorted id set.toList, pairwise_insertSorted set.ascending⟩

/-- The set of the members of a list. -/
def ofList (ids : List String) : IdSet := ids.foldl insert empty

/-- The members that pass a test. -/
def filter (set : IdSet) (keep : String → Bool) : IdSet :=
  ⟨set.toList.filter keep, set.ascending.filter keep⟩

def union (a b : IdSet) : IdSet := b.toList.foldl insert a

/-- The members of the first set that the second lacks. -/
def diff (a b : IdSet) : IdSet := a.filter fun id => !b.contains id

/-- Whether there is no member. -/
def isEmpty (set : IdSet) : Bool := set.toList.isEmpty

/-- Whether the sets share a member. -/
def meets (a b : IdSet) : Bool := a.toList.any b.contains

end IdSet

/-- The ids that a table lists. -/
def Table.idSet {V : Type u} (table : Table V) : IdSet :=
  ⟨table.keys, List.pairwise_map.2 table.ascending⟩

end Clickstream
