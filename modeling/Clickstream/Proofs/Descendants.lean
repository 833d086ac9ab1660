import Clickstream.Proofs.Ancestry

/-! # The tags below a tag

The tags below one are those whose chain of links leads there. They are found within as many steps
as there are tags with children, since none is passed twice on the way down; and a walk that keeps
a stack and notes whom it has visited comes to an end and finds the same.
-/

namespace Clickstream.Taxonomy

open Relation

variable {tags : Table Tag} {id child parent : String}

/-! ## The way down -/

/-- The tags with children. -/
theorem mem_keys_children {children : Table IdSet} (h : child ∈ (children.get? parent).getD .empty) :
    parent ∈ children.keys := by
  refine Table.mem_keys.2 (Table.contains_iff.2 ?_)
  cases found : children.get? parent with
  | none => rw [found] at h; exact absurd h IdSet.not_mem_empty
  | some ids => exact ⟨ids, rfl⟩

/-- The tags passed on the way down to a tag: they differ and have children. -/
structure Passed (tags : Table Tag) (passed : List String) (id : String) : Prop where
  nodup : passed.Nodup
  above : ∀ a ∈ passed, TransGen (Parent tags) id a
  parents : passed ⊆ (({ tags } : Taxonomy).rebuild).1.children.keys

namespace Passed

variable {passed : List String}

theorem nil : Passed tags [] id := ⟨List.nodup_nil, by simp, List.nil_subset _⟩

/-- A tag that has children and is not above itself is a new one on the way down. -/
theorem step (h : Passed tags passed id) (leads : Parent tags child id) :
    Passed tags (id :: passed) child where
  nodup := List.nodup_cons.2 ⟨fun again => not_parent_around (h.above id again), h.nodup⟩
  above a passedBy := by
    rcases List.mem_cons.1 passedBy with rfl | passedBy
    · exact .single leads
    · exact .head leads (h.above a passedBy)
  parents := List.cons_subset.2
    ⟨mem_keys_children (IdSet.mem_toList.1 (mem_childIds.2 leads)), h.parents⟩

/-- There are no more tags to pass than have children. -/
theorem length_lt (h : Passed tags passed id) (leads : Parent tags child id) :
    passed.length < (({ tags } : Taxonomy).rebuild).1.children.size := by
  have further := h.step leads
  have fewer := (further.nodup.subperm further.parents).length_le
  rwa [Table.keys, List.length_map] at fewer

end Passed

/-- A tag whose chain leads to another is found below it, within as many steps as there are tags with
children but for those already passed on the way down. -/
private theorem mem_below_of_reached {depth : Nat} {passed : List String}
    (reached : ReflTransGen (Parent tags) child id) (onWay : Passed tags passed id)
    (enough : (({ tags } : Taxonomy).rebuild).1.children.size ≤ passed.length + depth) :
    child ∈ (({ tags } : Taxonomy).rebuild).1.below depth id := by
  induction depth generalizing passed id with
  | zero =>
    rcases ReflTransGen.cases_tail reached with rfl | ⟨between, -, leads⟩
    · exact List.mem_singleton_self _
    · have := onWay.length_lt leads
      omega
  | succ depth ih =>
    rw [below]
    rcases ReflTransGen.cases_tail reached with rfl | ⟨between, before, leads⟩
    · exact List.mem_cons_self
    · refine List.mem_cons_of_mem _ (List.mem_flatMap.2 ⟨between, mem_childIds.2 leads, ?_⟩)
      refine ih before (onWay.step leads) ?_
      rw [List.length_cons]
      omega

theorem mem_below {depth : Nat} (h : child ∈ (({ tags } : Taxonomy).rebuild).1.below depth id) :
    ReflTransGen (Parent tags) child id := by
  induction depth generalizing id with
  | zero => exact List.mem_singleton.1 h ▸ .refl
  | succ depth ih =>
    rw [below] at h
    rcases List.mem_cons.1 h with rfl | h
    · exact .refl
    · obtain ⟨between, leads, h⟩ := List.mem_flatMap.1 h
      exact (ih h).tail (mem_childIds.1 leads)

/-- The tags at or below a registered one are those whose chain of parents leads to it. -/
theorem mem_descendantsAndSelf :
    child ∈ (({ tags } : Taxonomy).rebuild).1.descendantsAndSelf id ↔
      tags.contains id = true ∧ ReflTransGen (Parent tags) child id := by
  have same : (({ tags } : Taxonomy).rebuild).1.contains id = tags.contains id := rfl
  rw [descendantsAndSelf, same]
  split
  · next registered =>
    rw [IdSet.mem_ofList]
    refine ⟨fun h => ⟨registered, mem_below h⟩, fun ⟨_, reached⟩ => ?_⟩
    have enough (size : Nat) : size ≤ ([] : List String).length + size := by simp
    exact mem_below_of_reached reached .nil (enough _)
  · next unknown => simp [unknown]

/-! ## The walk with a stack -/

/-- What a walk has visited in the end that has some tags on its stack, the topmost first, and has
visited others. -/
inductive Visits (taxonomy : Taxonomy) : List String → IdSet → IdSet → Prop where
  | done {visited : IdSet} : Visits taxonomy [] visited visited
  /-- A tag that was visited is only taken off the stack. -/
  | skips {id : String} {stack : List String} {visited found : IdSet} (seen : id ∈ visited) :
    Visits taxonomy stack visited found → Visits taxonomy (id :: stack) visited found
  /-- Any other is noted and makes way for its children, but for those that were visited. -/
  | notes {id : String} {stack : List String} {visited found : IdSet} (unseen : id ∉ visited) :
    Visits taxonomy
      (((taxonomy.childIds id).filter fun child => !(visited.insert id).contains child).reverse
        ++ stack) (visited.insert id) found →
    Visits taxonomy (id :: stack) visited found

namespace Visits

variable {taxonomy : Taxonomy} {stack : List String} {visited found : IdSet}

theorem mem_pushed : child ∈ ((taxonomy.childIds id).filter fun child =>
      !(visited.insert id).contains child).reverse ++ stack ↔
    (child ∈ taxonomy.childIds id ∧ child ∉ visited.insert id) ∨ child ∈ stack := by
  simp only [List.mem_append, List.mem_reverse, List.mem_filter, Bool.not_eq_true',
    ← Bool.not_eq_true, IdSet.contains_iff]

/-- Whom a walk has visited in the end had been visited, or is at or below a tag on the stack. -/
theorem sound (h : Visits taxonomy stack visited found) (member : child ∈ found) :
    child ∈ visited ∨
      ∃ top ∈ stack, ReflTransGen (fun a b => a ∈ taxonomy.childIds b) child top := by
  induction h with
  | done => exact .inl member
  | skips seen _ ih =>
    exact (ih member).imp_right fun ⟨top, onStack, below⟩ =>
      ⟨top, List.mem_cons_of_mem _ onStack, below⟩
  | @notes id stack visited found unseen _ ih =>
    rcases ih member with inside | ⟨top, onStack, below⟩
    · rcases IdSet.mem_insert.1 inside with rfl | before
      · exact .inr ⟨child, List.mem_cons_self, .refl⟩
      · exact .inl before
    · rcases mem_pushed.1 onStack with ⟨isChild, -⟩ | later
      · exact .inr ⟨id, List.mem_cons_self, below.tail isChild⟩
      · exact .inr ⟨top, List.mem_cons_of_mem _ later, below⟩

/-- Whoever was visited or is on the stack is visited in the end. -/
theorem visits (h : Visits taxonomy stack visited found) :
    (∀ a ∈ visited, a ∈ found) ∧ ∀ a ∈ stack, a ∈ found := by
  induction h with
  | done => exact ⟨fun _ => id, by simp⟩
  | skips seen _ ih => exact ⟨ih.1, List.forall_mem_cons.2 ⟨ih.1 _ seen, ih.2⟩⟩
  | notes unseen _ ih =>
    obtain ⟨before, pushed⟩ := ih
    refine ⟨fun a member => before a (IdSet.mem_insert.2 (.inr member)),
      List.forall_mem_cons.2 ⟨before _ (IdSet.mem_insert.2 (.inl rfl)), fun a onStack => ?_⟩⟩
    exact pushed a (mem_pushed.2 (.inr onStack))

/-- If the children of those visited were visited or are on the stack, all children of those who are
visited in the end are so too. -/
theorem closed (h : Visits taxonomy stack visited found)
    (pushed : ∀ a ∈ visited, ∀ child ∈ taxonomy.childIds a, child ∈ visited ∨ child ∈ stack) :
    ∀ a ∈ found, ∀ child ∈ taxonomy.childIds a, child ∈ found := by
  induction h with
  | done =>
    exact fun a member child isChild =>
      (pushed a member child isChild).resolve_right List.not_mem_nil
  | skips seen _ ih =>
    refine ih fun a member child isChild => ?_
    rcases pushed a member child isChild with inside | onStack
    · exact .inl inside
    · rcases List.mem_cons.1 onStack with rfl | later
      · exact .inl seen
      · exact .inr later
  | @notes id stack visited found unseen _ ih =>
    refine ih fun a member child isChild => ?_
    by_cases inside : child ∈ visited.insert id
    · exact .inl inside
    · refine .inr (mem_pushed.2 ?_)
      rcases IdSet.mem_insert.1 member with rfl | before
      · exact .inl ⟨isChild, inside⟩
      · rcases pushed a before child isChild with visited' | onStack
        · exact absurd (IdSet.mem_insert.2 (.inr visited')) inside
        · rcases List.mem_cons.1 onStack with rfl | later
          · exact absurd (IdSet.mem_insert.2 (.inl rfl)) inside
          · exact .inr later

/-- Every tag is noted only once, so a walk among finitely many tags comes to an end. -/
theorem exists_found {all rest : List String}
    (children : ∀ a ∈ all, ∀ child ∈ taxonomy.childIds a, child ∈ all)
    (onStack : ∀ a ∈ stack, a ∈ all) (left : ∀ a ∈ all, a ∉ visited → a ∈ rest) :
    ∃ found, Visits taxonomy stack visited found := by
  induction size : rest.length using Nat.strong_induction_on generalizing stack visited rest with
  | _ n ih =>
    subst size
    induction stack with
    | nil => exact ⟨visited, .done⟩
    | cons id stack further =>
      obtain ⟨here, later⟩ := List.forall_mem_cons.1 onStack
      by_cases seen : id ∈ visited
      · obtain ⟨found, h⟩ := further later
        exact ⟨found, .skips seen h⟩
      · have isLeft := left id here seen
        have fewer : (rest.erase id).length < rest.length := by
          rw [List.length_erase_of_mem isLeft]
          exact Nat.sub_one_lt (List.ne_nil_of_mem isLeft ∘ List.length_eq_zero_iff.1)
        have covers : ∀ a ∈ all, a ∉ visited.insert id → a ∈ rest.erase id := by
          intro a member unseen
          rw [IdSet.mem_insert, not_or] at unseen
          exact (List.mem_erase_of_ne unseen.1).2 (left a member unseen.2)
        obtain ⟨found, h⟩ := ih _ fewer (fun a pushed => (mem_pushed.1 pushed).elim
          (fun isChild => children id here a isChild.1) (later a)) covers rfl
        exact ⟨found, .notes seen h⟩

end Visits

/-- The walk from a registered tag finds it and all tags below it. -/
theorem visits_iff (registered : tags.contains id = true) {found : IdSet} :
    Visits (({ tags } : Taxonomy).rebuild).1 [id] .empty found ↔
      found = (({ tags } : Taxonomy).rebuild).1.descendantsAndSelf id := by
  have leads {a b : String} : a ∈ (({ tags } : Taxonomy).rebuild).1.childIds b ↔
    Parent tags a b := mem_childIds
  have same {found : IdSet} (h : Visits (({ tags } : Taxonomy).rebuild).1 [id] .empty found) :
      found = (({ tags } : Taxonomy).rebuild).1.descendantsAndSelf id := by
    ext child
    rw [mem_descendantsAndSelf, and_iff_right registered]
    constructor
    · intro member
      rcases h.sound member with none | ⟨top, onStack, below⟩
      · exact absurd none IdSet.not_mem_empty
      · rw [List.mem_singleton.1 onStack] at below
        exact ReflTransGen.mono (fun _ _ => leads.1) _ _ below
    · intro reached
      have down := h.closed fun a member => absurd member IdSet.not_mem_empty
      induction reached using ReflTransGen.head_induction_on with
      | refl => exact h.visits.2 id List.mem_cons_self
      | head step _ ih => exact down _ ih _ (leads.2 step)
  refine ⟨same, ?_⟩
  rintro rfl
  have children : ∀ a ∈ ((({ tags } : Taxonomy).rebuild).1.descendantsAndSelf id).toList,
      ∀ child ∈ (({ tags } : Taxonomy).rebuild).1.childIds a,
        child ∈ ((({ tags } : Taxonomy).rebuild).1.descendantsAndSelf id).toList := by
    intro a member child isChild
    rw [IdSet.mem_toList, mem_descendantsAndSelf] at member ⊢
    exact ⟨registered, .head (leads.1 isChild) member.2⟩
  have start : ∀ a ∈ [id],
      a ∈ ((({ tags } : Taxonomy).rebuild).1.descendantsAndSelf id).toList := by
    intro a isStart
    rw [List.mem_singleton.1 isStart, IdSet.mem_toList, mem_descendantsAndSelf]
    exact ⟨registered, .refl⟩
  obtain ⟨found, h⟩ := @Visits.exists_found _ _ .empty _ _ children start fun _ member _ => member
  exact same h ▸ h

end Clickstream.Taxonomy
