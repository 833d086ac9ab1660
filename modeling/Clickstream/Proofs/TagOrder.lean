import Mathlib.Data.List.Nodup
import Clickstream.Proofs.Tables
import Clickstream.Taxonomy

/-! # The order of tags

Tags are listed by rank, and by id where their ranks are the same. Ids of registered tags differ, so
of two registered tags one precedes the other, and a listing of some tags depends on nothing but which
tags these are.
-/

namespace Clickstream

namespace Tag

variable {a b c : Tag}

/-- A tag comes before another one: by its rank, or by its id where the ranks are the same. -/
def Precedes (a b : Tag) : Prop :=
  Decimal.orderKey a.rank < Decimal.orderKey b.rank ∨
    Decimal.orderKey a.rank = Decimal.orderKey b.rank ∧ a.id < b.id

theorem le_iff : a.le b = true ↔ Decimal.orderKey a.rank < Decimal.orderKey b.rank ∨
    Decimal.orderKey a.rank = Decimal.orderKey b.rank ∧ a.id ≤ b.id :=
  decide_eq_true_iff

theorem le_trans (first : a.le b = true) (second : b.le c = true) : a.le c = true := by
  rw [le_iff] at first second ⊢
  rcases first with less | ⟨same, before⟩
  · left
    omega
  · rcases second with less | ⟨same', before'⟩
    · left
      omega
    · exact .inr ⟨same.trans same', String.le_trans before before'⟩

theorem le_total : (a.le b || b.le a) = true := by
  rw [Bool.or_eq_true, le_iff, le_iff]
  rcases Int.lt_trichotomy (Decimal.orderKey a.rank) (Decimal.orderKey b.rank) with
    less | same | greater
  · exact .inl (.inl less)
  · exact (String.le_total a.id b.id).imp (fun before => .inr ⟨same, before⟩)
      fun before => .inr ⟨same.symm, before⟩
  · exact .inr (.inl greater)

theorem precedes_of_le (first : a.le b = true) (other : a.id ≠ b.id) : a.Precedes b := by
  rcases le_iff.1 first with less | ⟨same, before⟩
  · exact .inl less
  · exact .inr ⟨same, String.not_le.1 fun after => other (String.le_antisymm before after)⟩

theorem Precedes.irrefl (h : a.Precedes a) : False := by
  rcases h with less | ⟨-, less⟩
  · exact Int.lt_irrefl _ less
  · exact String.lt_irrefl _ less

end Tag

namespace Taxonomy

variable {taxonomy : Taxonomy} {ids : List String} {t : Tag}

theorem perm_ordered : (taxonomy.ordered ids).Perm (ids.filterMap taxonomy.get?) :=
  List.mergeSort_perm _ _

theorem mem_ordered : t ∈ taxonomy.ordered ids ↔ ∃ id ∈ ids, taxonomy.get? id = some t :=
  perm_ordered.mem_iff.trans List.mem_filterMap

theorem nodup_ordered (keyed : ∀ key t, taxonomy.tags.get? key = some t → t.id = key)
    (nodup : ids.Nodup) : ((taxonomy.ordered ids).map Tag.id).Nodup := by
  refine List.pairwise_map.2 ((perm_ordered.pairwise_iff fun other => Ne.symm other).2 ?_)
  refine List.pairwise_filterMap.2 (nodup.imp ?_)
  intro id id' other a isA b isB same
  exact other ((keyed id a isA).symm.trans (same.trans (keyed id' b isB)))

/-- Tags of different ids are listed one before the other. -/
theorem pairwise_ordered (keyed : ∀ key t, taxonomy.tags.get? key = some t → t.id = key)
    (nodup : ids.Nodup) : (taxonomy.ordered ids).Pairwise Tag.Precedes := by
  have sorted : (taxonomy.ordered ids).Pairwise fun a b => a.le b = true :=
    @List.pairwise_mergeSort _ Tag.le (fun _ _ _ => Tag.le_trans) (fun _ _ => Tag.le_total) _
  have distinct := List.pairwise_map.1 (nodup_ordered keyed nodup)
  exact sorted.imp₂ (fun _ _ => Tag.precedes_of_le) distinct

end Taxonomy

end Clickstream
