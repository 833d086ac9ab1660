import Clickstream.Proofs.GoalItems
import Clickstream.Proofs.Holdings
import Clickstream.Proofs.Nesting

/-! # What changing a goal does to the store

Setting, removing and disabling a goal come to the same: the item of one goal is replaced or dropped,
its two rules are those it now has, and everything else stays. Unless the files of the store fail,
that is all that can happen, except that a goal is turned down whole.
-/

namespace Clickstream

/-- The items after a goal is replaced or dropped, and its rules with it. -/
def Holdings.withGoal (holdings : Holdings) (actionType goalId : String) (goal : Option Goal) :
    Holdings :=
  let rule (step : FunnelStep) := (goal.bind (·.rule? actionType step)).map Item.ofEntity
  ((holdings.set "rule" (FunnelStep.start.ruleId goalId) (rule .start)).set "rule"
    (FunnelStep.target.ruleId goalId) (rule .target)).set "goal" goalId (goal.map Item.ofEntity)

namespace Holdings

variable {holdings : Holdings} {actionType goalId other : String} {goal : Option Goal}

@[simp] theorem withGoal_goal : holdings.withGoal actionType goalId goal "goal" goalId =
    goal.map Item.ofEntity := set_self

theorem withGoal_other_goal (h : other ≠ goalId) :
    holdings.withGoal actionType goalId goal "goal" other = holdings "goal" other := by
  rw [withGoal, set_other_id h, set_other_type (by decide), set_other_type (by decide)]

@[simp] theorem withGoal_rule {step : FunnelStep} :
    holdings.withGoal actionType goalId goal "rule" (step.ruleId goalId) =
      (goal.bind (·.rule? actionType step)).map Item.ofEntity := by
  rw [withGoal, set_other_type (by decide)]
  cases step with
  | start =>
    have other : FunnelStep.start.ruleId goalId ≠ FunnelStep.target.ruleId goalId := by
      simp [FunnelStep.ruleId_inj]
    rw [set_other_id other, set_self]
  | target => rw [set_self]

/-- Only what is kept of the goal counts. -/
theorem withGoal_congr {g g' : Goal} (h : g.kept = g'.kept) :
    holdings.withGoal actionType goalId (some g) =
      holdings.withGoal actionType goalId (some g') := by
  have item : Item.ofEntity g = Item.ofEntity g' := by
    rw [← Goal.ofEntity_kept, h, Goal.ofEntity_kept]
  simp only [withGoal, Option.bind_some, Option.map_some, Goal.map_rule?_congr h, item]

theorem withGoal_other_rule (h : ∀ step : FunnelStep, other ≠ step.ruleId goalId) :
    holdings.withGoal actionType goalId goal "rule" other = holdings "rule" other := by
  rw [withGoal, set_other_type (by decide), set_other_id (h _), set_other_id (h _)]

end Holdings

namespace GoalError

/-- The files of the store failed. -/
def IsIo (e : GoalError) : Prop := ∃ path, e = .store (.io path)

/-- The goal was turned down because a type that it needs is not registered. -/
def IsRejection : GoalError → Prop
  | .unresolvedCondition _ _ | .missingActionType _ => True
  | .store _ | .notFound _ => False

end GoalError

/-- Every condition type that the goal refers to is registered. -/
def Registry.Knows (r : Registry) (g : Goal) : Prop :=
  ∀ id ∈ g.typeIds, r.definitions.conditionTypes.contains id = true

/-- A goal can be set: the registry knows it, and has the action type of its rules if it has any. -/
structure Engine.Accepts (e : Engine) (g : Goal) : Prop where
  knows : e.registry.Knows g
  action : g.isCompiled = true →
    e.registry.definitions.actionTypes.contains e.settings.setPropertyAction = true

namespace Goal

/-- The goal under another id. -/
def withId (g : Goal) (goalId : String) : Goal :=
  { g with metadata := { g.metadata with id := goalId } }

/-- The goal, no longer in effect. -/
def disabled (g : Goal) : Goal := { g with metadata := { g.metadata with enabled := false } }

/-- An event resolves exactly if its types are registered, and is kept as it was. -/
private theorem resolve_event {r : Registry} {event : Option Condition} :
    (∀ event', event.mapM (Condition.resolve r) = .ok event' →
      event'.map Condition.kept = event.map Condition.kept) ∧
    ((∃ event', event.mapM (Condition.resolve r) = .ok event') ↔
      ∀ c, event = some c → ∀ id ∈ c.typeIds,
        r.definitions.conditionTypes.contains id = true) := by
  cases event with
  | none =>
    refine ⟨?_, fun _ c none => ?_, fun _ => ⟨none, rfl⟩⟩
    · rintro _ ⟨⟩
      rfl
    · cases none
  | some c =>
    have known : (∃ c', c.resolve r = .ok c') ↔
        ∀ id ∈ c.typeIds, r.definitions.conditionTypes.contains id = true := by
      simp only [Condition.resolve_eq_ok_iff, exists_and_left, exists_eq, and_true]
    cases resolved : c.resolve r with
    | error e =>
      simp only [Option.mapM_some, resolved]
      refine ⟨?_, ?_, fun all => ?_⟩
      · rintro _ ⟨⟩
      · rintro ⟨_, ⟨⟩⟩
      · obtain ⟨c', isOk⟩ := known.2 (all c rfl)
        rw [resolved] at isOk
        cases isOk
    | ok c' =>
      simp only [Option.mapM_some, resolved]
      obtain ⟨all, rfl⟩ := Condition.resolve_eq_ok_iff.1 resolved
      refine ⟨?_, fun _ other same => ?_, fun _ => ⟨_, rfl⟩⟩
      · rintro _ ⟨⟩
        rfl
      · cases same
        exact all

theorem knows_iff {r : Registry} {g : Goal} : r.Knows g ↔
    ∀ step c, g.event? step = some c → ∀ id ∈ c.typeIds,
      r.definitions.conditionTypes.contains id = true := by
  simp only [Registry.Knows, mem_typeIds]
  exact ⟨fun all step c event id inside => all id ⟨step, c, event, inside⟩,
    fun all id ⟨step, c, event, inside⟩ => all step c event id inside⟩

private theorem resolve_eq_ok_iff {r : Registry} {g g' : Goal} : g.resolve r = .ok g' ↔
    ∃ startEvent targetEvent, g.startEvent.mapM (Condition.resolve r) = .ok startEvent ∧
      g.targetEvent.mapM (Condition.resolve r) = .ok targetEvent ∧
      g' = { g with startEvent, targetEvent } := by
  rw [resolve]
  constructor
  · intro h
    cases start : g.startEvent.mapM (Condition.resolve r) with
    | error e => rw [start] at h; cases h
    | ok startEvent =>
      cases target : g.targetEvent.mapM (Condition.resolve r) with
      | error e => rw [start, target] at h; cases h
      | ok targetEvent =>
        rw [start, target] at h
        exact ⟨startEvent, targetEvent, rfl, rfl, (Except.ok.inj h).symm⟩
  · rintro ⟨startEvent, targetEvent, start, target, rfl⟩
    rw [start, target]
    rfl

/-- A goal that resolves is kept as it was. -/
theorem kept_of_resolve {r : Registry} {g g' : Goal} (h : g.resolve r = .ok g') :
    g'.kept = g.kept := by
  obtain ⟨startEvent, targetEvent, start, target, rfl⟩ := resolve_eq_ok_iff.1 h
  simp only [kept, resolve_event.1 _ start, resolve_event.1 _ target]

/-- A goal resolves exactly if the registry knows it. -/
theorem resolve_isOk {r : Registry} {g : Goal} : (∃ g', g.resolve r = .ok g') ↔ r.Knows g := by
  rw [knows_iff]
  constructor
  · rintro ⟨g', h⟩ step
    obtain ⟨startEvent, targetEvent, start, target, -⟩ := resolve_eq_ok_iff.1 h
    cases step with
    | start => exact resolve_event.2.1 ⟨startEvent, start⟩
    | target => exact resolve_event.2.1 ⟨targetEvent, target⟩
  · intro known
    obtain ⟨startEvent, start⟩ := resolve_event.2.2 (known .start)
    obtain ⟨targetEvent, target⟩ := resolve_event.2.2 (known .target)
    exact ⟨_, resolve_eq_ok_iff.2 ⟨startEvent, targetEvent, start, target, rfl⟩⟩

end Goal

namespace Engine

variable {e : Engine} {goalId : String}

theorem ends_saveEntity {α : Type} [Entity α] {entity : α} :
    e.Ends (Goals.saveEntity entity)
      (fun _ e' => e.Restocked e' (Holdings.set e.store.load (Entity.itemType α) (Entity.id entity)
        (some (Item.ofEntity entity))))
      (fun error _ => error.IsIo) := by
  rw [Goals.saveEntity, Goals.ofStore, ends_adapt]
  refine ends_save.mono (fun _ _ saved => saved) ?_
  rintro _ _ ⟨path, rfl⟩
  exact ⟨path, rfl⟩

theorem ends_removeItem {type id : String} :
    e.Ends (Goals.ofStore (Operation.remove type id))
      (fun _ e' => e.Restocked e' (Holdings.set e.store.load type id none))
      (fun error _ => error.IsIo) := by
  rw [Goals.ofStore, ends_adapt]
  refine ends_remove.mono (fun _ _ removed => removed) ?_
  rintro _ _ ⟨path, rfl⟩
  exact ⟨path, rfl⟩

/-- What one step does to the items, another one does after it. -/
theorem Restocked.next {e' e'' : Engine} {holdings : Holdings} {type id : String}
    {item : Option Item} (first : e.Restocked e' holdings)
    (second : e'.Restocked e'' (Holdings.set e'.store.load type id item)) :
    e.Restocked e'' (holdings.set type id item) :=
  first.load ▸ first.trans second

theorem ends_retractRules :
    e.Ends (Goals.retractRules goalId)
      (fun _ e' => e.Restocked e'
        ((Holdings.set e.store.load "rule" (FunnelStep.start.ruleId goalId) none).set "rule"
          (FunnelStep.target.ruleId goalId) none))
      (fun error _ => error.IsIo) := by
  rw [Goals.retractRules, FunnelStep.all]
  simp only [List.forM_eq_forM, List.forM_cons, List.forM_nil, ends_bind, ends_pure]
  refine ends_removeItem.mono (fun _ e' first => ?_) fun _ _ failed => failed
  exact ends_removeItem.mono (fun _ e'' second => first.next second) fun _ _ failed => failed

/-- A goal is set with its rules, or turned down and nothing changes. -/
theorem ends_setGoal {goal : Goal} :
    e.Ends (Goals.setGoal goalId goal)
      (fun _ e' => e.Accepts (goal.withId goalId) ∧
        e.Restocked e' (Holdings.withGoal e.store.load e.settings.setPropertyAction goalId
          (some (goal.withId goalId).kept)))
      (fun error e' => error.IsIo ∧ e.Accepts (goal.withId goalId) ∨
        (error.IsRejection ∧ ¬ e.Accepts (goal.withId goalId)) ∧ e' = e) := by
  rw [Goals.setGoal, ends_bind, ends_get]
  split
  · next error unresolved =>
    refine .inr ⟨⟨trivial, fun accepted => ?_⟩, rfl⟩
    obtain ⟨g, resolved⟩ := Goal.resolve_isOk.2 accepted.knows
    have conflict := unresolved.symm.trans resolved
    cases conflict
  · next g resolved =>
    have known : e.registry.Knows (goal.withId goalId) := Goal.resolve_isOk.1 ⟨g, resolved⟩
    have same : g.kept = (goal.withId goalId).kept := Goal.kept_of_resolve resolved
    have sameRules : (goal.withId goalId).isCompiled = g.isCompiled := by
      rw [← Goal.isCompiled_kept, ← same, Goal.isCompiled_kept]
    -- What is saved has its types looked up, but what is kept of it is the goal as it was given.
    obtain rfl : g.id = goalId := congrArg (fun kept : Goal => kept.metadata.id) same
    rw [← Holdings.withGoal_congr (same.trans Goal.kept_kept.symm), Holdings.withGoal]
    split
    · next compiled =>
      dsimp only
      split
      · next missing =>
        refine .inr ⟨⟨trivial, fun accepted => ?_⟩, rfl⟩
        rw [accepted.action (sameRules.trans compiled)] at missing
        cases missing
      · next registered =>
        have accepted : e.Accepts (goal.withId g.id) := ⟨known, fun _ => by simpa using registered⟩
        refine Ends.mono ?_ (fun _ _ changed => ⟨accepted, changed⟩) fun _ _ failed =>
          .inl ⟨failed, accepted⟩
        obtain ⟨start, target, rules, isStart, isTarget⟩ :=
          @Goal.rules_of_isCompiled g e.settings.setPropertyAction compiled
        simp only [rules, List.forM_eq_forM, List.forM_cons, List.forM_nil, ends_bind, ends_pure]
        refine ends_saveEntity.mono (fun _ e₁ first => ?_) fun _ _ failed => failed
        refine ends_saveEntity.mono (fun _ e₂ second => ?_) fun _ _ failed => failed
        refine ends_saveEntity.mono (fun _ e₃ third => ?_) fun _ _ failed => failed
        simp only [Option.bind_some, isStart, isTarget, ← Goal.id_of_rule? isStart,
          ← Goal.id_of_rule? isTarget]
        exact (first.next second).next third
    · next notCompiled =>
      have accepted : e.Accepts (goal.withId g.id) :=
        ⟨known, fun compiled => absurd (sameRules.symm.trans compiled) notCompiled⟩
      refine Ends.mono ?_ (fun _ _ changed => ⟨accepted, changed⟩) fun _ _ failed =>
        .inl ⟨failed, accepted⟩
      rw [ends_bind]
      refine ends_retractRules.mono (fun _ e₁ first => ?_) fun _ _ failed => failed
      refine ends_saveEntity.mono (fun _ e₂ second => ?_) fun _ _ failed => failed
      simp only [Option.bind_some, Goal.rule?, if_neg notCompiled]
      exact first.next second

/-- A goal that is turned down changes nothing. -/
theorem eq_of_rejected {e' : Engine} {goal : Goal} {error : GoalError}
    (ended : e.outcome (Goals.setGoal goalId goal) = (.error error, e'))
    (rejected : error.IsRejection) : e' = e := by
  rcases ends_setGoal.badly ended with ⟨⟨path, rfl⟩, _⟩ | ⟨_, same⟩
  · exact rejected.elim
  · exact same

/-- A goal is removed with its rules. -/
theorem ends_removeGoal :
    e.Ends (Goals.removeGoal goalId)
      (fun _ e' => e.Restocked e'
        (Holdings.withGoal e.store.load e.settings.setPropertyAction goalId none))
      (fun error _ => error.IsIo) := by
  rw [Goals.removeGoal, ends_bind]
  refine ends_retractRules.mono (fun _ e₁ first => ?_) fun _ _ failed => failed
  exact ends_removeItem.mono (fun _ e₂ second => first.next second) fun _ _ failed => failed

/-- A goal is disabled and loses its rules. -/
theorem ends_disable {g : Goal} :
    e.Ends (Goals.disable g)
      (fun _ e' => e.Restocked e'
        (Holdings.withGoal e.store.load e.settings.setPropertyAction g.id (some g.disabled)))
      (fun error _ => error.IsIo) := by
  have notCompiled : g.disabled.isCompiled = false := rfl
  simp only [Goals.disable, ends_bind, ends_log]
  refine ends_retractRules.mono (fun _ e₁ first => ?_) fun _ _ failed => failed
  refine ends_saveEntity.mono (fun _ e₂ second => ?_) fun _ _ failed => failed
  rw [Holdings.withGoal]
  simp only [Option.bind_some, Goal.rule?, notCompiled]
  exact first.next second

/-- Without types to look for, no goal is disabled. -/
theorem ends_disableUsing_empty {ids : IdSet} (none : ids.isEmpty = true)
    {good : List String → Engine → Prop} {bad : GoalError → Engine → Prop} (h : good [] e) :
    e.Ends (Goals.disableUsing ids) good bad := by
  rw [Goals.disableUsing, if_pos none]
  exact h

/-! ## Installing a predefined goal -/

/-- What installing a goal can do: nothing if there is a goal with its id, else it is set if the
engine accepts it, and waits if not. The answer tells whether it was set. -/
inductive Installs (e : Engine) (candidate : PendingGoal) : Bool → Engine → Prop where
  | there (item : Item) (found : e.store.load "goal" candidate.goal.id = some item) :
    Installs e candidate false { e with pending := e.pending.erase candidate.goal.id }
  | done (e' : Engine) (new : e.store.load "goal" candidate.goal.id = none)
      (accepted : e.Accepts candidate.goal)
      (changed : e.Restocked e' (Holdings.withGoal e.store.load e.settings.setPropertyAction
        candidate.goal.id (some candidate.goal.kept))) :
    Installs e candidate true { e' with pending := e'.pending.erase candidate.goal.id }
  | waits (new : e.store.load "goal" candidate.goal.id = none)
      (rejected : ¬ e.Accepts candidate.goal) :
    Installs e candidate false
      { e with pending := e.pending.insert candidate.goal.id candidate }

theorem installs {candidate : PendingGoal} :
    e.Ends (Goals.installGoal candidate) (fun installed e' => e.Installs candidate installed e')
      (fun error _ => error.IsIo) := by
  simp only [Goals.installGoal, Goals.unpark, ends_bind, ends_get]
  split
  · next isThere =>
    obtain ⟨item, found⟩ := Option.isSome_iff_exists.1 isThere
    exact .there item found
  · next notThere =>
    have new : e.store.load "goal" candidate.goal.id = none := by simpa using notThere
    simp only [ends_bind, ends_attempt]
    refine ends_setGoal.mono ?_ ?_
    · rintro _ e' ⟨accepted, changed⟩
      exact .done e' new accepted changed
    · intro error e' failed
      rcases failed with ⟨⟨path, rfl⟩, _⟩ | ⟨⟨rejection, rejected⟩, rfl⟩
      · exact ⟨path, rfl⟩
      · cases error with
        | store | notFound => exact rejection.elim
        | unresolvedCondition | missingActionType => exact .waits new rejected

end Engine

end Clickstream
