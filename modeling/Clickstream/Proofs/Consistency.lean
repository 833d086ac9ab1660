import Clickstream.Proofs.StoredGoals

/-! # Goals and rules stay consistent

An engine is consistent if every goal id has one goal or none, the two rules of the id are those of
that goal, there are no other rules, and the registry knows the types of all goals in effect. While
a change is under way some goals may be exempt from the last part: after definitions have gone, those
that used them, until they are disabled one after the other.
-/

namespace Clickstream

/-- Under a goal id there are a goal, or none, and the rules that go with it. -/
structure Holdings.HasGoal (holdings : Holdings) (actionType goalId : String) (goal : Option Goal) :
    Prop where
  item : holdings "goal" goalId = goal.map Item.ofEntity
  rules : ∀ step : FunnelStep, holdings "rule" (step.ruleId goalId) =
    (goal.bind (·.rule? actionType step)).map Item.ofEntity

/-- A goal as it stands in a store, and allowed to be in effect if it is. -/
structure Goal.IsStored (g : Goal) (goalId : String) (allowed : Goal → Prop) : Prop where
  id : g.id = goalId
  kept : g.kept = g
  allowed : g.metadata.enabled = true → allowed g

/-- Goals and rules match, and the goals in effect are allowed to be. -/
structure Holdings.Consistent (holdings : Holdings) (actionType : String) (allowed : Goal → Prop) :
    Prop where
  goals : ∀ goalId, ∃ goal, holdings.HasGoal actionType goalId goal ∧
    ∀ g, goal = some g → g.IsStored goalId allowed
  rules : ∀ ruleId item, holdings "rule" ruleId = some item →
    ∃ (step : FunnelStep) (goalId : String), ruleId = step.ruleId goalId

namespace Holdings

variable {holdings : Holdings} {actionType goalId other : String} {goal goal' : Option Goal}
  {allowed allowed' : Goal → Prop}

theorem hasGoal_withGoal :
    (holdings.withGoal actionType goalId goal).HasGoal actionType goalId goal :=
  ⟨withGoal_goal, fun _ => withGoal_rule⟩

theorem HasGoal.withGoal (h : holdings.HasGoal actionType other goal')
    (different : other ≠ goalId) :
    (holdings.withGoal actionType goalId goal).HasGoal actionType other goal' := by
  constructor
  · rw [withGoal_other_goal different]
    exact h.item
  · intro step
    have apart : ∀ step' : FunnelStep, step.ruleId other ≠ step'.ruleId goalId :=
      fun step' same => different (FunnelStep.ruleId_inj.1 same).2
    rw [withGoal_other_rule apart]
    exact h.rules step

/-- Replacing one goal keeps the others, and may free them from what its id was exempt from. -/
theorem Consistent.withGoal (h : holdings.Consistent actionType allowed)
    (new : ∀ g, goal = some g → g.IsStored goalId allowed')
    (others : ∀ g, g.id ≠ goalId → allowed g → allowed' g) :
    (holdings.withGoal actionType goalId goal).Consistent actionType allowed' := by
  constructor
  · intro other
    by_cases same : other = goalId
    · subst same
      exact ⟨goal, hasGoal_withGoal, new⟩
    · obtain ⟨goal', has, stored⟩ := h.goals other
      refine ⟨goal', has.withGoal same, fun g isGoal => ?_⟩
      obtain ⟨id, kept, isAllowed⟩ := stored g isGoal
      exact ⟨id, kept, fun enabled => others g (id ▸ same) (isAllowed enabled)⟩
  · intro ruleId item found
    -- A rule id tells its goal, so an id that is none of this goal's keeps what it had.
    by_cases ofGoal : ∃ step : FunnelStep, ruleId = step.ruleId goalId
    · obtain ⟨step, same⟩ := ofGoal
      exact ⟨step, goalId, same⟩
    · rw [withGoal_other_rule (fun step same => ofGoal ⟨step, same⟩)] at found
      exact h.rules ruleId item found

/-- What is allowed may be weakened for the goals that are there and in effect. -/
theorem Consistent.mono (h : holdings.Consistent actionType allowed)
    (weaker : ∀ g : Goal, holdings "goal" g.id = some (Item.ofEntity g) → g.kept = g →
      g.metadata.enabled = true → allowed g → allowed' g) :
    holdings.Consistent actionType allowed' := by
  refine ⟨fun goalId => ?_, h.rules⟩
  obtain ⟨goal, has, stored⟩ := h.goals goalId
  refine ⟨goal, has, fun g isGoal => ?_⟩
  obtain ⟨rfl, kept, isAllowed⟩ := stored g isGoal
  have item : holdings "goal" g.id = some (Item.ofEntity g) := by rw [has.item, isGoal]; rfl
  exact ⟨rfl, kept, fun enabled => weaker g item kept enabled (isAllowed enabled)⟩

/-- Goals that are exempt until they are disabled, one after the other. -/
theorem Consistent.disabling {goals : List Goal}
    (h : holdings.Consistent actionType fun g => allowed g ∨ g ∈ goals)
    (kept : ∀ g ∈ goals, g.kept = g) :
    (holdings.disabling actionType goals).Consistent actionType allowed := by
  induction goals generalizing holdings with
  | nil => exact h.mono fun g _ _ _ known => known.resolve_right List.not_mem_nil
  | cons g rest ih =>
    obtain ⟨keptHere, keptRest⟩ := List.forall_mem_cons.1 kept
    rw [Holdings.disabling, List.foldl_cons, ← Holdings.disabling]
    -- The exemption shrinks with the list: who was disabled needs none any more.
    refine ih (h.withGoal ?_ fun other apart known => ?_) keptRest
    · rintro _ ⟨⟩
      have events : g.kept.disabled = g.disabled := by rw [keptHere]
      refine ⟨rfl, events, fun enabled => ?_⟩
      cases enabled
    · refine known.imp_right fun member => ?_
      rcases List.mem_cons.1 member with rfl | member
      · exact absurd rfl apart
      · exact member

/-- Every item of a goal is that of a goal which belongs under its id. -/
theorem Consistent.exists_goal (h : holdings.Consistent actionType allowed) {item : Item}
    (found : holdings "goal" goalId = some item) :
    ∃ g : Goal, item = Item.ofEntity g ∧ holdings.HasGoal actionType goalId (some g) ∧
      g.IsStored goalId allowed := by
  obtain ⟨goal, has, stored⟩ := h.goals goalId
  rw [has.item] at found
  obtain ⟨g, rfl, rfl⟩ := Option.map_eq_some_iff.1 found
  exact ⟨g, rfl, has, stored g rfl⟩

end Holdings

/-- Goals and rules match, and the registry knows all goals in effect that are not exempt. -/
structure Engine.Consistent (e : Engine) (settings : GoalSettings) (exempt : Goal → Prop) :
    Prop where
  configured : e.settings = settings
  holdings : Holdings.Consistent e.store.load settings.setPropertyAction
    fun g => e.registry.Knows g ∨ exempt g
  pending : ∀ goalId waiting, e.pending.get? goalId = some waiting → waiting.goal.IsCanonical

/-- Goals and rules match, and the registry knows all goals in effect. -/
def Engine.Intact (e : Engine) (settings : GoalSettings) : Prop :=
  e.Consistent settings fun _ => False

namespace Engine

variable {e e' : Engine} {settings : GoalSettings} {exempt exempt' : Goal → Prop} {goalId : String}
  {goal : Option Goal}

/-- An engine in which only one goal was replaced. -/
theorem Consistent.withGoal (h : e.Consistent settings exempt)
    (changed : e.Restocked e'
      (Holdings.withGoal e.store.load e.settings.setPropertyAction goalId goal))
    (new : ∀ g, goal = some g → g.IsStored goalId fun g => e.registry.Knows g ∨ exempt g) :
    e'.Consistent settings exempt := by
  refine ⟨changed.settings.trans h.configured, ?_, ?_⟩
  · rw [changed.load, changed.registry, h.configured]
    exact h.holdings.withGoal new fun _ _ same => same
  · rw [changed.pending]
    exact h.pending

theorem Consistent.mono (h : e.Consistent settings exempt)
    (weaker : ∀ g : Goal, e.store.load "goal" g.id = some (Item.ofEntity g) → g.kept = g →
      g.metadata.enabled = true → exempt g → exempt' g) : e.Consistent settings exempt' :=
  ⟨h.configured,
    h.holdings.mono fun g item kept enabled => Or.imp_right (weaker g item kept enabled), h.pending⟩

/-- A goal that the registry knows was set with its rules. -/
theorem Consistent.set (h : e.Consistent settings exempt) {goal : Goal}
    (canonical : goal.IsCanonical) (known : e.registry.Knows goal)
    (changed : e.Restocked e' (Holdings.withGoal e.store.load e.settings.setPropertyAction goal.id
      (some goal.kept))) : e'.Consistent settings exempt := by
  refine h.withGoal changed ?_
  rintro _ ⟨⟩
  refine ⟨rfl, Goal.kept_kept, fun _ => .inl ?_⟩
  intro id member
  rw [Goal.typeIds_kept canonical] at member
  exact known id member

theorem Consistent.setGoal (h : e.Consistent settings exempt) {goal : Goal}
    (canonical : goal.IsCanonical) :
    e.Ends (Goals.setGoal goalId goal) (fun _ e' => e'.Consistent settings exempt)
      (fun error e' => error.IsIo ∨ error.IsRejection ∧ e' = e) := by
  have canonical' : (goal.withId goalId).IsCanonical :=
    ⟨canonical.startEvent, canonical.targetEvent⟩
  refine ends_setGoal.mono (fun _ e' ⟨accepted, changed⟩ => ?_) fun _ _ failed => ?_
  · exact h.set canonical' accepted.knows changed
  · exact failed.imp And.left fun ⟨⟨rejected, _⟩, same⟩ => ⟨rejected, same⟩

theorem Consistent.removeGoal (h : e.Consistent settings exempt) :
    e.Ends (Goals.removeGoal goalId) (fun _ e' => e'.Consistent settings exempt)
      (fun error _ => error.IsIo) := by
  refine ends_removeGoal.mono (fun _ e' changed => ?_) fun _ _ failed => failed
  refine h.withGoal changed ?_
  rintro _ ⟨⟩

/-! ## Disabling all goals that use some types -/

/-- Where goals and rules match, every goal stands under its own id. -/
theorem Consistent.own (h : e.Consistent settings exempt) {g : Goal}
    (found : e.store.goal? goalId = some g) : g.id = goalId := by
  obtain ⟨item, there, read⟩ := Option.bind_eq_some_iff.1 found
  obtain ⟨g', rfl, _, same, kept, _⟩ := h.holdings.exists_goal there
  rw [Goal.toEntity_ofEntity, kept] at read
  cases read
  exact same

theorem Consistent.readable (h : e.Consistent settings exempt) : e.store.GoalsReadable := by
  intro item member
  obtain ⟨goalId, found⟩ := Store.mem_all.1 member
  obtain ⟨g, rfl, _⟩ := h.holdings.exists_goal found
  exact ⟨g.kept, Goal.toEntity_ofEntity⟩

/-- Disabling the goals that use some types ends their exemption. -/
theorem Consistent.disableUsing {ids : IdSet}
    (h : e.Consistent settings fun g => g.referencesAny ids = true) :
    e.Ends (Goals.disableUsing ids) (fun _ e' => e'.Intact settings)
      (fun error _ => error.IsIo) := by
  refine (ends_disableUsing h.readable).mono ?_ fun _ _ failed => failed
  rintro _ e' ⟨changed, -⟩
  refine ⟨changed.settings.trans h.configured, ?_, changed.pending ▸ h.pending⟩
  rw [changed.load, changed.registry, h.configured]
  refine Holdings.Consistent.disabling (h.holdings.mono fun g item kept enabled known => ?_)
    fun g member => ?_
  · refine known.imp .inl fun uses => List.mem_map.2 ⟨(g.id, g), ?_, rfl⟩
    have found : e.store.goal? g.id = some g := by
      rw [Store.goal?, item, Option.bind_some, Goal.toEntity_ofEntity, kept]
      rfl
    exact Store.mem_using.2 ⟨found, enabled, uses⟩
  · obtain ⟨⟨goalId, g⟩, listed, rfl⟩ := List.mem_map.1 member
    exact Store.kept_of_goal? (Store.mem_using.1 listed).1

/-! ## Installing predefined goals -/

theorem Consistent.setPending (h : e.Consistent settings exempt) {pending : Table PendingGoal}
    (canonical : ∀ goalId waiting, pending.get? goalId = some waiting → waiting.goal.IsCanonical) :
    Engine.Consistent { e with pending } settings exempt :=
  ⟨h.configured, h.holdings, canonical⟩

theorem Consistent.unpark (h : e.Consistent settings exempt) :
    Engine.Consistent { e with pending := e.pending.erase goalId } settings exempt := by
  refine h.setPending fun other waiting found => ?_
  rw [Table.get?_erase] at found
  split at found
  · cases found
  · exact h.pending other waiting found

theorem Consistent.park (h : e.Consistent settings exempt) {candidate : PendingGoal}
    (canonical : candidate.goal.IsCanonical) :
    Engine.Consistent { e with pending := e.pending.insert goalId candidate } settings exempt := by
  refine h.setPending fun other waiting found => ?_
  rw [Table.get?_insert] at found
  split at found
  · cases found; exact canonical
  · exact h.pending other waiting found

theorem Consistent.forgetGoals {ε : Type} (h : e.Consistent settings exempt) {module : ModuleId} :
    e.Ends (Goals.forgetGoals module : Operation ε Unit)
      (fun _ e' => e'.Consistent settings exempt) (fun _ _ => False) := by
  rw [Goals.forgetGoals, ends_modify]
  refine h.setPending fun other waiting found => ?_
  rw [Table.get?_filter, Option.filter_eq_some_iff] at found
  exact h.pending other waiting found.1

theorem Consistent.installGoal (h : e.Consistent settings exempt) {candidate : PendingGoal}
    (canonical : candidate.goal.IsCanonical) :
    e.Ends (Goals.installGoal candidate) (fun _ e' => e'.Consistent settings exempt)
      (fun error _ => error.IsIo) := by
  refine installs.mono (fun _ _ step => ?_) fun _ _ failed => failed
  cases step with
  | there => exact h.unpark
  | done e' new accepted changed => exact (h.set canonical accepted.knows changed).unpark
  | waits => exact h.park canonical

theorem Consistent.installGoals (h : e.Consistent settings exempt) {candidates : List PendingGoal}
    (canonical : ∀ candidate ∈ candidates, candidate.goal.IsCanonical) :
    e.Ends (Goals.installGoals candidates) (fun _ e' => e'.Consistent settings exempt)
      (fun error _ => error.IsIo) := by
  induction candidates generalizing e with
  | nil => exact h
  | cons candidate rest ih =>
    obtain ⟨here, others⟩ := List.forall_mem_cons.1 canonical
    simp only [Goals.installGoals, ends_bind, ends_pure]
    refine (h.installGoal here).mono (fun _ e' next => ?_) fun _ _ failed => failed
    exact ih next others

/-- What a module ships was read from one of its documents. -/
theorem exists_of_mem_candidates {source : ModuleSource} {candidate : PendingGoal}
    (h : candidate ∈ (Goals.candidates source).value) :
    ∃ document, Goals.candidate? source.id document = some candidate := by
  rw [Goals.candidates] at h
  dsimp only at h
  split at h
  · cases h
  · obtain ⟨document, _, found⟩ := List.mem_filterMap.1 h
    exact ⟨document, found⟩

theorem isCanonical_of_mem_candidates {source : ModuleSource} {candidate : PendingGoal}
    (h : candidate ∈ (Goals.candidates source).value) : candidate.goal.IsCanonical := by
  obtain ⟨document, found⟩ := exists_of_mem_candidates h
  rw [Goals.candidate?] at found
  obtain ⟨g, read, rfl⟩ := Option.map_eq_some_iff.1 found
  obtain ⟨d, _, read⟩ := Option.bind_eq_some_iff.1 read
  have canonical : g.IsCanonical := Goal.kept_of_ofDocument? read ▸ Goal.isCanonical_kept
  exact ⟨canonical.startEvent, canonical.targetEvent⟩

theorem Consistent.loadGoals (h : e.Consistent settings exempt) {source : ModuleSource} :
    e.Ends (Goals.loadGoals source) (fun _ e' => e'.Consistent settings exempt)
      (fun error _ => error.IsIo) := by
  simp only [Goals.loadGoals, ends_bind, ends_log, ends_get, ends_pure]
  refine h.forgetGoals.mono (fun _ e' next => ?_) fun _ _ failed => failed.elim
  refine next.installGoals fun candidate member => ?_
  rcases List.mem_append.1 member with shipped | waiting
  · exact isCanonical_of_mem_candidates shipped
  · obtain ⟨goalId, found⟩ := Table.mem_values.1 waiting
    exact next.pending goalId candidate found

end Engine

end Clickstream
