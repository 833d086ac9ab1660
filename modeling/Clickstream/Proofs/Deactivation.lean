import Clickstream.Proofs.ModuleChanges
import Clickstream.Proofs.Runs

/-! # What deactivating a module changes

The goals in effect that refer to a condition type of the module are disabled and lose their rules.
All other goals and rules, the items of other types, the definitions of others and what waits for
others stay. This is said for any store whose goals can be read, whether or not goals and rules
match: only the goals that are disabled have to stand under their own ids, because it is there that
a disabled goal is written back.
-/

namespace Clickstream

/-! ## The goals that depend on a module -/

/-- A goal is in effect and refers to a condition type of a module. -/
structure Goal.DependsOn (g : Goal) (r : Registry) (module : ModuleId) : Prop where
  enabled : g.metadata.enabled = true
  uses : ∃ id ∈ g.typeIds, r.Owns module .conditionType id

/-- The goals that depend on a module, with the ids they stand under. -/
def Engine.dependents (e : Engine) (module : ModuleId) : Fields Goal :=
  e.store.using (e.registry.contributions module).conditionTypes

theorem Engine.mem_dependents {e : Engine} {module : ModuleId} {goalId : String} {g : Goal} :
    (goalId, g) ∈ e.dependents module ↔
      e.store.goal? goalId = some g ∧ g.DependsOn e.registry module := by
  have owned (id : String) : id ∈ (e.registry.contributions module).conditionTypes ↔
      e.registry.Owns module .conditionType id :=
    @Definitions.mem_contributions _ _ .conditionType _
  simp only [dependents, Store.mem_using, Goal.referencesAny_iff, owned]
  exact and_congr_right fun _ => ⟨fun ⟨enabled, uses⟩ => ⟨enabled, uses⟩,
    fun ⟨enabled, uses⟩ => ⟨enabled, uses⟩⟩

namespace Engine

variable {e e' : Engine}

/-! ## Dropping a module -/

/-- A module is dropped: its definitions and what waits for it are gone, and goals are disabled. -/
structure Drops (e : Engine) (module : ModuleId) (report : DeactivationReport) (e' : Engine) :
    Prop where
  registry : e'.registry = (e.registry.unload module).1
  pending : e'.pending = e.pending.filter fun _ p => p.module ≠ module
  load : e'.store.load = Holdings.disabling e.store.load e.settings.setPropertyAction
    ((e.dependents module).map Prod.snd)
  mappings : e'.store.mappings = e.store.mappings
  settings : e'.settings = e.settings
  report : report = {
    module
    removed := e.registry.contributions module
    goalsDisabled := ((e.dependents module).map (·.2.id)).mergeSort }

theorem ends_deactivate (readable : e.store.GoalsReadable) {module : ModuleId} :
    e.Ends (Server.deactivate module) (fun report e' => e.Drops module report e')
      (fun error _ => error.IsIo) := by
  simp only [Server.deactivate, Operation.unloadModule, Goals.forgetGoals, ends_bind, ends_get,
    ends_set, ends_modify, ends_pure]
  have disabled := @ends_disableUsing
    { e with
      registry := (e.registry.unload module).1
      pending := e.pending.filter fun _ p => p.module ≠ module }
    readable (e.registry.contributions module).conditionTypes
  refine ends_ofGoals (disabled.mono ?_ fun _ _ failed => failed)
  rintro _ e' ⟨changed, rfl⟩
  exact ⟨changed.registry, changed.pending, changed.load, changed.mappings, changed.settings, rfl⟩

/-- What deactivating a module is to do, and nothing else. -/
structure Deactivates (e : Engine) (module : ModuleId) (report : DeactivationReport)
    (e' : Engine) : Prop where
  /-- The goals that depend on the module are only disabled. -/
  disabled : ∀ goalId g, e.store.goal? goalId = some g → g.DependsOn e.registry module →
    e'.store.goal? goalId = some g.disabled
  /-- All other goals stay as they are. -/
  otherGoals : ∀ goalId, (∀ g, e.store.goal? goalId = some g → ¬ g.DependsOn e.registry module) →
    e'.store.load "goal" goalId = e.store.load "goal" goalId
  /-- The goals that were disabled have no rules. -/
  rules : ∀ goalId g, e.store.goal? goalId = some g → g.DependsOn e.registry module →
    ∀ step : FunnelStep, e'.store.load "rule" (step.ruleId goalId) = none
  /-- All other rules stay as they are. -/
  otherRules : ∀ ruleId, (∀ goalId g, e.store.goal? goalId = some g →
      g.DependsOn e.registry module → ∀ step : FunnelStep, ruleId ≠ step.ruleId goalId) →
    e'.store.load "rule" ruleId = e.store.load "rule" ruleId
  /-- So do the items of all other types. -/
  otherItems : ∀ type id, type ≠ "goal" → type ≠ "rule" →
    e'.store.load type id = e.store.load type id
  mappings : e'.store.mappings = e.store.mappings
  settings : e'.settings = e.settings
  /-- Only the definitions of the module go. -/
  definitions : ∀ kind id, e'.registry.definitions.declaration? kind id =
    (e.registry.definitions.declaration? kind id).filter fun x => x.owner ≠ some module
  /-- Only what waits for the module goes. -/
  pending : ∀ goalId, e'.pending.get? goalId =
    (e.pending.get? goalId).filter fun waiting => waiting.module ≠ module
  /-- The definitions of the module are reported. -/
  removed : ∀ kind id, id ∈ report.removed.ids kind ↔ e.registry.Owns module kind id
  /-- The goals that were disabled are reported in order, each once. -/
  ascending : report.goalsDisabled.Pairwise (· < ·)
  reported : ∀ goalId, goalId ∈ report.goalsDisabled ↔
    ∃ g, e.store.goal? goalId = some g ∧ g.DependsOn e.registry module
  /-- There is nothing left to do for a second call. -/
  again : e'.Ends (Server.deactivate module)
    (fun again e'' => again.removed.isEmpty = true ∧ again.goalsDisabled = [] ∧
      e''.store = e'.store ∧ e''.settings = e'.settings ∧ e''.pending = e'.pending ∧
      e''.registry.definitions = e'.registry.definitions)
    (fun _ _ => False)

section

variable {module : ModuleId} {report : DeactivationReport}

/-- A disabled goal is read back as it was written. -/
theorem goal?_of_disabled {goalId : String} {g : Goal} (kept : g.kept = g)
    (item : e.store.load "goal" goalId = some (Item.ofEntity g.disabled)) :
    e.store.goal? goalId = some g.disabled := by
  have same : g.disabled.kept = g.disabled := by
    show g.kept.disabled = g.disabled
    rw [kept]
  rw [Store.goal?, item, Option.bind_some, Goal.toEntity_ofEntity, same]
  rfl

/-- Nothing is left to be done for a module that was dropped. -/
theorem Drops.again (h : e.Drops module report e') :
    e'.Ends (Server.deactivate module)
      (fun again e'' => again.removed.isEmpty = true ∧ again.goalsDisabled = [] ∧
        e''.store = e'.store ∧ e''.settings = e'.settings ∧ e''.pending = e'.pending ∧
        e''.registry.definitions = e'.registry.definitions)
      (fun _ _ => False) := by
  have empty : (e'.registry.contributions module).isEmpty = true := by
    rw [h.registry]
    exact Contributions.isEmpty_iff.2 Registry.dropsOnly.contributes
  have noTypes : (e'.registry.contributions module).conditionTypes.isEmpty = true :=
    IdSet.isEmpty_iff.2 (Contributions.isEmpty_iff.1 empty .conditionType)
  have unloaded : (e'.registry.unload module).1.definitions = e'.registry.definitions := by
    rw [Registry.unload]
    dsimp only
    rw [if_pos empty]
  have forgotten : e'.pending.filter (fun _ p => p.module ≠ module) = e'.pending := by
    refine Table.ext fun goalId => ?_
    rw [h.pending, Table.get?_filter, Table.get?_filter, Option.filter_filter]
    simp only [Bool.and_self]
  simp only [Server.deactivate, Operation.unloadModule, Goals.forgetGoals, Server.ofGoals,
    ends_bind, ends_get, ends_set, ends_modify, ends_pure, ends_adapt]
  exact ends_disableUsing_empty noTypes ⟨empty, rfl, rfl, rfl, forgotten, unloaded⟩

/-- A goal that was disabled where it stands stands under its own id. -/
theorem Drops.own_of_deactivates (h : e.Drops module report e')
    (deactivates : e.Deactivates module report e') {goalId : String} {g : Goal}
    (found : e.store.goal? goalId = some g) (depends : g.DependsOn e.registry module) :
    g.id = goalId := by
  have isDisabled := deactivates.disabled goalId g found depends
  rcases @Holdings.disabling_goal e.store.load e.settings.setPropertyAction
    ((e.dependents module).map Prod.snd) goalId with ⟨g', member, rfl, item⟩ | ⟨_, same⟩
  · obtain ⟨⟨otherId, g'⟩, listed, rfl⟩ := List.mem_map.1 member
    rw [← h.load] at item
    rw [goal?_of_disabled (Store.kept_of_goal? (mem_dependents.1 listed).1) item] at isDisabled
    have same : g.disabled = g'.disabled := Option.some.inj isDisabled.symm
    show g.disabled.id = g'.disabled.id
    rw [same]
  -- Nothing was written there, so the goal is still in effect.
  · rw [← h.load] at same
    rw [Store.goal?, same, ← Store.goal?, found] at isDisabled
    have still := depends.enabled
    rw [Option.some.inj isDisabled] at still
    cases still

theorem Drops.deactivates (h : e.Drops module report e')
    (own : ∀ goalId g, e.store.goal? goalId = some g → g.DependsOn e.registry module →
      g.id = goalId) : e.Deactivates module report e' := by
  have mem_goals (g : Goal) : g ∈ (e.dependents module).map Prod.snd ↔
      e.store.goal? g.id = some g ∧ g.DependsOn e.registry module := by
    simp only [List.mem_map, Prod.exists, exists_eq_right, mem_dependents]
    constructor
    · rintro ⟨goalId, found, depends⟩
      obtain rfl := own goalId g found depends
      exact ⟨found, depends⟩
    · exact fun stands => ⟨_, stands⟩
  have ascending : ((e.dependents module).map Prod.fst).Pairwise (· < ·) :=
    List.pairwise_map.2 (Store.goals_ascending.filter _)
  have reported : report.goalsDisabled = (e.dependents module).map Prod.fst := by
    have ids : (e.dependents module).map (·.2.id) = (e.dependents module).map Prod.fst := by
      refine List.map_congr_left fun (goalId, g) member => ?_
      obtain ⟨found, depends⟩ := mem_dependents.1 member
      exact own goalId g found depends
    rw [h.report, ids]
    refine List.mergeSort_of_pairwise (ascending.imp fun less => decide_eq_true ?_)
    exact Std.le_of_lt less
  exact {
    disabled := fun goalId g found depends => by
      obtain rfl := own goalId g found depends
      rcases @Holdings.disabling_goal e.store.load e.settings.setPropertyAction
        ((e.dependents module).map Prod.snd) g.id with ⟨g', member, same, item⟩ | ⟨none, _⟩
      · have found' := ((mem_goals g').1 member).1
        rw [same, found] at found'
        cases found'
        exact goal?_of_disabled (Store.kept_of_goal? found) (h.load ▸ item)
      · exact absurd rfl (none g ((mem_goals g).2 ⟨found, depends⟩))
    otherGoals := fun goalId independent => by
      rw [h.load]
      rcases @Holdings.disabling_goal e.store.load e.settings.setPropertyAction
        ((e.dependents module).map Prod.snd) goalId with ⟨g, member, rfl, _⟩ | ⟨_, same⟩
      · obtain ⟨found, depends⟩ := (mem_goals g).1 member
        exact absurd depends (independent g found)
      · exact same
    rules := fun goalId g found depends step => by
      obtain rfl := own goalId g found depends
      rw [h.load]
      exact Holdings.disabling_rule.1 ⟨g, (mem_goals g).2 ⟨found, depends⟩, step, rfl⟩
    otherRules := fun ruleId others => by
      rw [h.load]
      refine Holdings.disabling_rule.2 fun g member => ?_
      obtain ⟨found, depends⟩ := (mem_goals g).1 member
      exact others g.id g found depends
    otherItems := fun type id goal rule => by
      rw [h.load]
      exact Holdings.disabling_other_type goal rule
    mappings := h.mappings
    settings := h.settings
    definitions := fun kind id => by
      rw [h.registry]
      exact Registry.declaration?_unload
    pending := fun goalId => by rw [h.pending, Table.get?_filter]
    removed := fun kind id => by
      rw [h.report]
      exact Definitions.mem_contributions
    ascending := reported ▸ ascending
    reported := fun goalId => by
      simp only [reported, List.mem_map, Prod.exists, exists_and_right, exists_eq_right,
        mem_dependents]
    again := h.again }

end

end Engine

/-- However goals and rules stand in a store, if the goals can be read then a module is deactivated
as it is to be exactly if the goals that depend on it stand under their own ids: one that stands
under another id stays in effect there. Only the files of the store can fail. -/
theorem Server.deactivates_iff {e : Engine} {module : ModuleId} (readable : e.store.GoalsReadable) :
    e.Ends (Server.deactivate module)
      (fun report e' => e.Deactivates module report e' ↔
        ∀ goalId g, e.store.goal? goalId = some g → g.DependsOn e.registry module → g.id = goalId)
      (fun error _ => error.IsIo) := by
  refine (Engine.ends_deactivate readable).mono (fun report e' drops => ?_) fun _ _ failed => failed
  exact ⟨fun deactivates _ _ => drops.own_of_deactivates deactivates, drops.deactivates⟩

/-- A run that sets a goal and then takes out the module whose condition type it uses. -/
theorem Server.deactivates_iff_signup :
    ∃ e report e', ({} : Engine).after? signupCalls = some e ∧ e.store.GoalsReadable ∧
      e.outcome (Server.deactivate "forms") = (.ok report, e') ∧
      report.goalsDisabled = ["signup"] ∧ e.Deactivates "forms" report e' := by
  have ran : (({} : Engine).after? signupCalls).bind (fun e =>
      (e.outcome (Server.deactivate "forms")).1.toOption.map DeactivationReport.goalsDisabled) =
      some ["signup"] := by decide +kernel
  obtain ⟨e, ran, answered⟩ := Option.bind_eq_some_iff.1 ran
  obtain ⟨report, answered, disabled⟩ := Option.map_eq_some_iff.1 answered
  have intact : e.Intact {} :=
    (Engine.intact_of_empty rfl rfl (by intro _ _ found; cases found)).after ran
  have readable : e.store.GoalsReadable := Engine.Consistent.readable intact
  have ended := Engine.outcome_of_toOption answered
  have iff := (deactivates_iff readable).well ended
  exact ⟨e, report, _, ran, readable, ended, disabled,
    iff.2 fun _ _ found _ => Engine.Consistent.own intact found⟩

/-- A goal under an id that is not its own. -/
def strayGoal : Item where
  id := "x"
  type := "goal"
  body := [("metadata", .object [("id", .string "y")]),
    ("startEvent", .object [("type", .string "formSubmit")])]

/-- A goal that stands under the id of another one is disabled under its own id, and is still in
effect where it stands. -/
theorem Server.deactivate_misses_stray :
    ∃ start e report e', ({} : Engine).after? [.activate formsModule] = some start ∧
      start.outcome (Operation.save strayGoal) = (.ok (), e) ∧ e.store.GoalsReadable ∧
      e.outcome (Server.deactivate "forms") = (.ok report, e') ∧ report.goalsDisabled = ["y"] ∧
      (∃ g, e.store.goal? "x" = some g ∧ g.DependsOn e.registry "forms") ∧
      (∃ g, e'.store.goal? "x" = some g ∧ g.metadata.enabled = true) ∧
      ¬ e.Deactivates "forms" report e' := by
  have ran : (({} : Engine).after? [.activate formsModule]).map (fun start =>
      let saved := start.outcome (Operation.save strayGoal)
      let dropped := saved.2.outcome (Server.deactivate "forms")
      (saved.1.toOption, dropped.1.toOption.map DeactivationReport.goalsDisabled,
        (saved.2.store.all "goal").all fun item => (item.toEntity Goal).toOption.isSome,
        (saved.2.dependents "forms").map Prod.fst,
        (dropped.2.store.goal? "x").map (·.metadata.enabled))) =
      some (some (), some ["y"], true, ["x"], some true) := by decide +kernel
  obtain ⟨start, started, ran⟩ := Option.map_eq_some_iff.1 ran
  simp only [Prod.mk.injEq, List.all_eq_true, Option.isSome_iff_exists] at ran
  obtain ⟨saved, disabled, readable, dependents, still⟩ := ran
  obtain ⟨report, dropped, disabled⟩ := Option.map_eq_some_iff.1 disabled
  obtain ⟨g', found', inEffect⟩ := Option.map_eq_some_iff.1 still
  obtain ⟨⟨_, g⟩, listed, rfl⟩ := List.mem_map.1 (dependents ▸ List.mem_singleton_self "x")
  obtain ⟨found, depends⟩ := Engine.mem_dependents.1 listed
  refine ⟨start, _, report, _, started, Engine.outcome_of_toOption saved, fun item member => ?_,
    Engine.outcome_of_toOption dropped, disabled, ⟨g, found, depends⟩, ⟨g', found', inEffect⟩,
    fun deactivates => ?_⟩
  · obtain ⟨g, read⟩ := readable item member
    exact ⟨g, toOption_eq_some.1 read⟩
  · rw [deactivates.disabled _ g found depends] at found'
    cases found'
    cases inEffect

end Clickstream
