import Clickstream.Proofs.GoalChanges

/-! # The goals in a store

What is read of the goals in a store, each under the id it stands under, and what disabling some of
them leaves. A goal is written back under its own id, so this is said of the items as they are, also
where a goal stands under the id of another.
-/

namespace Clickstream

/-! ## The goals of a store -/

namespace Store

variable {store : Store} {goalId : String} {g : Goal}

/-- Every item of a goal can be read. -/
def GoalsReadable (store : Store) : Prop :=
  ∀ item ∈ store.all "goal", ∃ g : Goal, item.toEntity Goal = .ok g

/-- The goal that stands under an id, whatever id it has itself. -/
def goal? (store : Store) (goalId : String) : Option Goal :=
  (store.load "goal" goalId).bind fun item => (item.toEntity Goal).toOption

/-- The goals that can be read, each with the id it stands under. -/
def goals (store : Store) : Fields Goal :=
  ((store.items.get? "goal").getD .empty).entries.filterMap fun (goalId, item) =>
    (item.toEntity Goal).toOption.map (goalId, ·)

theorem mem_goals : (goalId, g) ∈ store.goals ↔ store.goal? goalId = some g := by
  simp only [goals, goal?, load_eq_get?, List.mem_filterMap, Prod.exists, Table.mem_entries,
    Option.map_eq_some_iff, Prod.mk.injEq, Option.bind_eq_some_iff]
  constructor
  · rintro ⟨_, item, found, _, read, rfl, rfl⟩
    exact ⟨item, found, read⟩
  · rintro ⟨item, found, read⟩
    exact ⟨goalId, item, found, g, read, rfl, rfl⟩

theorem goals_ascending : store.goals.Ascending := by
  refine List.Pairwise.filterMap _ ?_ ((store.items.get? "goal").getD .empty).ascending
  rintro ⟨a, one⟩ ⟨b, two⟩ less _ here _ there
  obtain ⟨_, _, rfl⟩ := Option.map_eq_some_iff.1 here
  obtain ⟨_, _, rfl⟩ := Option.map_eq_some_iff.1 there
  exact less

/-- A goal that was read is as an item keeps it. -/
theorem kept_of_goal? (h : store.goal? goalId = some g) : g.kept = g := by
  obtain ⟨item, -, read⟩ := Option.bind_eq_some_iff.1 h
  rw [Item.toEntity] at read
  split at read
  · cases read
  · dsimp only [Entity.ofDocument?] at read
    split at read
    · next isGoal => cases read; exact Goal.kept_of_ofDocument? isGoal
    · cases read

end Store

/-! ## Disabling goals -/

/-- The goals in effect that refer to one of some condition types, with the ids they stand under. -/
def Store.using (store : Store) (ids : IdSet) : Fields Goal :=
  store.goals.filter fun (_, g) => g.metadata.enabled && g.referencesAny ids

theorem Store.mem_using {store : Store} {ids : IdSet} {goalId : String} {g : Goal} :
    (goalId, g) ∈ store.using ids ↔ store.goal? goalId = some g ∧
      g.metadata.enabled = true ∧ g.referencesAny ids = true := by
  rw [Store.using, List.mem_filter, mem_goals, Bool.and_eq_true]

/-- The items after goals are disabled one after the other. -/
def Holdings.disabling (holdings : Holdings) (actionType : String) (goals : List Goal) : Holdings :=
  goals.foldl (fun held g => held.withGoal actionType g.id (some g.disabled)) holdings

namespace Holdings

variable {holdings : Holdings} {actionType : String} {goals : List Goal}

/-- Under an id stands one of the disabled goals with that id, or what stood there before. -/
theorem disabling_goal {goalId : String} :
    (∃ g ∈ goals, g.id = goalId ∧
      holdings.disabling actionType goals "goal" goalId = some (Item.ofEntity g.disabled)) ∨
    (∀ g ∈ goals, g.id ≠ goalId) ∧
      holdings.disabling actionType goals "goal" goalId = holdings "goal" goalId := by
  induction goals generalizing holdings with
  | nil => exact .inr ⟨fun _ none => absurd none List.not_mem_nil, rfl⟩
  | cons g rest ih =>
    rw [disabling, List.foldl_cons, ← disabling]
    rcases @ih (holdings.withGoal actionType g.id (some g.disabled)) with ⟨g', member, found⟩ | none
    · exact .inl ⟨g', List.mem_cons_of_mem _ member, found⟩
    · rw [none.2]
      by_cases same : g.id = goalId
      · subst same
        exact .inl ⟨g, List.mem_cons_self, rfl, withGoal_goal⟩
      · exact .inr ⟨List.forall_mem_cons.2 ⟨same, none.1⟩, withGoal_other_goal (Ne.symm same)⟩

/-- The rules of the disabled goals are gone, and no others. -/
theorem disabling_rule {ruleId : String} :
    ((∃ g ∈ goals, ∃ step : FunnelStep, ruleId = step.ruleId g.id) →
      holdings.disabling actionType goals "rule" ruleId = none) ∧
    ((∀ g ∈ goals, ∀ step : FunnelStep, ruleId ≠ step.ruleId g.id) →
      holdings.disabling actionType goals "rule" ruleId = holdings "rule" ruleId) := by
  induction goals generalizing holdings with
  | nil => exact ⟨fun ⟨_, member, _⟩ => absurd member List.not_mem_nil, fun _ => rfl⟩
  | cons g rest ih =>
    rw [disabling, List.foldl_cons, ← disabling]
    obtain ⟨gone, kept⟩ := @ih (holdings.withGoal actionType g.id (some g.disabled))
    constructor
    · rintro ⟨g', member, step, rfl⟩
      by_cases later : ∃ g'' ∈ rest, ∃ step' : FunnelStep, step.ruleId g'.id = step'.ruleId g''.id
      · exact gone later
      · rw [kept fun g'' inside step' same => later ⟨g'', inside, step', same⟩]
        rcases List.mem_cons.1 member with rfl | member
        · exact withGoal_rule
        · exact absurd ⟨g', member, step, rfl⟩ later
    · intro others
      obtain ⟨here, rest⟩ := List.forall_mem_cons.1 others
      rw [kept rest, withGoal_other_rule here]

theorem disabling_other_type {type id : String} (goal : type ≠ "goal") (rule : type ≠ "rule") :
    holdings.disabling actionType goals type id = holdings type id := by
  induction goals generalizing holdings with
  | nil => rfl
  | cons g rest ih =>
    rw [disabling, List.foldl_cons, ← disabling, ih, withGoal, set_other_type goal,
      set_other_type rule, set_other_type rule]

end Holdings

namespace Engine

variable {e e' : Engine}

/-- All goals can be read: they are those that stand in the store. -/
theorem ends_allGoals (readable : e.store.GoalsReadable) :
    e.Ends Goals.allGoals (fun goals e' => e' = e ∧ goals = e.store.goals.map Prod.snd)
      (fun _ _ => False) := by
  have each : ∀ items : List Item, (∀ item ∈ items, ∃ g : Goal, item.toEntity Goal = .ok g) →
      e.Ends (items.mapM (Goals.readEntity Goal))
        (fun goals e' => e' = e ∧ goals = items.filterMap fun item => (item.toEntity Goal).toOption)
        (fun _ _ => False) := by
    intro items
    induction items with
    | nil => exact fun _ => ⟨rfl, rfl⟩
    | cons item rest ih =>
      intro readable
      obtain ⟨⟨g, read⟩, others⟩ := List.forall_mem_cons.1 readable
      rw [List.mapM_cons]
      simp only [ends_bind, Goals.readEntity, read, ends_pure]
      refine (ih others).mono ?_ fun _ _ failed => failed
      rintro _ _ ⟨rfl, rfl⟩
      exact ⟨rfl, by rw [List.filterMap_cons, read]; rfl⟩
  rw [Goals.allGoals, ends_bind, ends_get]
  refine (each _ readable).mono ?_ fun _ _ failed => failed
  rintro _ _ ⟨rfl, rfl⟩
  refine ⟨rfl, ?_⟩
  rw [Store.all, Table.values, Store.goals, List.filterMap_map, List.map_filterMap]
  simp only [Function.comp_def, Option.map_map, Option.map_id']

theorem ends_disableAll {goals : List Goal} :
    e.Ends (goals.forM Goals.disable)
      (fun _ e' => e.Restocked e'
        (Holdings.disabling e.store.load e.settings.setPropertyAction goals))
      (fun error _ => error.IsIo) := by
  induction goals generalizing e with
  | nil => exact Restocked.refl
  | cons g rest ih =>
    rw [List.forM_eq_forM, List.forM_cons, ends_bind]
    refine ends_disable.mono (fun _ e₁ first => ?_) fun _ _ failed => failed
    refine ih.mono (fun _ e₂ others => ?_) fun _ _ failed => failed
    rw [first.load, first.settings] at others
    exact first.trans others

/-- Disabling the goals that use some types lists their own ids. -/
theorem ends_disableUsing (readable : e.store.GoalsReadable) {ids : IdSet} :
    e.Ends (Goals.disableUsing ids)
      (fun disabled e' => e.Restocked e' (Holdings.disabling e.store.load
          e.settings.setPropertyAction ((e.store.using ids).map Prod.snd)) ∧
        disabled = ((e.store.using ids).map (·.2.id)).mergeSort)
      (fun error _ => error.IsIo) := by
  rw [Goals.disableUsing]
  split
  · next empty =>
    have none : e.store.using ids = [] := by
      refine List.eq_nil_iff_forall_not_mem.2 fun entry member => ?_
      obtain ⟨id, _, member⟩ := Goal.referencesAny_iff.1 (Store.mem_using.1 member).2.2
      exact IdSet.isEmpty_iff.1 empty id member
    rw [none]
    exact ⟨Restocked.refl, by rw [List.map_nil, List.mergeSort_nil]⟩
  · simp only [ends_bind, ends_pure]
    refine (ends_allGoals readable).mono ?_ fun _ _ failed => failed.elim
    rintro _ e₁ ⟨rfl, rfl⟩
    rw [List.filter_map]
    refine ends_disableAll.mono (fun _ e₂ changed => ⟨changed, ?_⟩) fun _ _ failed => failed
    rw [List.map_map]
    rfl

end Engine

end Clickstream
