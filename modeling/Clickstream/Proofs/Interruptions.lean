import Clickstream.Proofs.Reactivation

/-! # What is left when bringing a module in or out fails

A module is applied to the registry first and to the goals second, and what was done before an error
stays. So after an error the registry is always the one that loading or dropping the module gives.
Goals that cannot be read are found out before any goal is touched. Only when the files of the store
fail are some goals changed and others not: every single item is then as before, or as the whole
operation makes it at some time on its way.
-/

namespace Clickstream

/-! ## Reading all goals -/

/-- A goal of the store cannot be read, for a cause. -/
def Store.Unreadable (store : Store) (cause : StoreError) : Prop :=
  ∃ item ∈ store.all "goal", item.toEntity Goal = .error cause

namespace Engine

variable {e e' e'' e₁ : Engine} {module : ModuleId} {gone : IdSet} {offered : PendingGoal → Prop}

/-- All goals can be read, or one of them cannot and nothing was done. -/
theorem ends_readGoals :
    e.Ends Goals.allGoals
      (fun goals e' => e' = e ∧ e.store.GoalsReadable ∧ goals = e.store.goals.map Prod.snd)
      (fun error e' => e' = e ∧ ∃ cause, error = .store cause ∧ e.store.Unreadable cause) := by
  by_cases readable : e.store.GoalsReadable
  · refine (ends_allGoals readable).mono ?_ fun _ _ failed => failed.elim
    rintro _ _ ⟨same, goals⟩
    exact ⟨same, readable, goals⟩
  · have each : ∀ items : List Item, (¬ ∀ item ∈ items, ∃ g : Goal, item.toEntity Goal = .ok g) →
        e.Ends (items.mapM (Goals.readEntity Goal)) (fun _ _ => False) (fun error e' => e' = e ∧
          ∃ cause, error = .store cause ∧ ∃ item ∈ items, item.toEntity Goal = .error cause) := by
      intro items
      induction items with
      | nil => exact fun unreadable => unreadable fun _ none => absurd none List.not_mem_nil
      | cons item rest ih =>
        intro unreadable
        rw [List.mapM_cons, ends_bind, Goals.readEntity]
        cases read : item.toEntity Goal with
        | error cause => exact ⟨rfl, cause, rfl, item, List.mem_cons_self, read⟩
        | ok g =>
          rw [List.forall_mem_cons] at unreadable
          have later := not_and.1 unreadable ⟨g, read⟩
          simp only [ends_pure, ends_bind]
          refine (ih later).mono (fun _ _ failed => failed.elim) ?_
          rintro _ _ ⟨rfl, cause, rfl, other, member, failed⟩
          exact ⟨rfl, cause, rfl, other, List.mem_cons_of_mem _ member, failed⟩
    rw [Goals.allGoals, ends_bind, ends_get]
    exact (each _ readable).mono (fun _ _ failed => failed.elim) fun _ _ failed => failed

end Engine

/-! ## Partway through -/

/-- A goal in effect that uses a condition type that is gone. -/
structure Store.Loses (store : Store) (gone : IdSet) (g : Goal) : Prop where
  stored : ∃ goalId, store.goal? goalId = some g
  enabled : g.metadata.enabled = true
  uses : g.referencesAny gone = true

namespace Engine

/-- A goal is offered which was not there and can be set. -/
structure Adds (e : Engine) (offered : PendingGoal → Prop) (c : PendingGoal) : Prop where
  isOffered : offered c
  new : e.store.load "goal" c.goal.id = none
  accepted : e.Accepts c.goal

/-- What is done to the item of a type and id when condition types are gone and goals are offered:
a goal is disabled and its rules deleted, or a goal that was not there and is accepted is set with
the rules that it has. -/
inductive Change (e : Engine) (gone : IdSet) (offered : PendingGoal → Prop) :
    String → String → Option Item → Prop where
  | disabled (g : Goal) (loses : e.store.Loses gone g) :
    Change e gone offered "goal" g.id (some (Item.ofEntity g.disabled))
  | retracted (g : Goal) (loses : e.store.Loses gone g) (step : FunnelStep) :
    Change e gone offered "rule" (step.ruleId g.id) none
  | installed (c : PendingGoal) (adds : e.Adds offered c) :
    Change e gone offered "goal" c.goal.id (some (Item.ofEntity c.goal.kept))
  | ruled (c : PendingGoal) (adds : e.Adds offered c) (step : FunnelStep) (rule : Rule)
      (isRule : c.goal.kept.rule? e.settings.setPropertyAction step = some rule) :
    Change e gone offered "rule" (step.ruleId c.goal.id) (some (Item.ofEntity rule))
  | cleared (c : PendingGoal) (adds : e.Adds offered c) (step : FunnelStep)
      (noRule : c.goal.kept.rule? e.settings.setPropertyAction step = none) :
    Change e gone offered "rule" (step.ruleId c.goal.id) none

/-- An engine that got from another one partway through bringing a module in or out. -/
structure Partway (e : Engine) (module : ModuleId) (gone : IdSet) (offered : PendingGoal → Prop)
    (e' : Engine) : Prop where
  registry : e'.registry = e.registry
  settings : e'.settings = e.settings
  /-- Every item is as before or was changed as the whole operation would. -/
  items : ∀ type id, e'.store.load type id = e.store.load type id ∨
    e.Change gone offered type id (e'.store.load type id)
  /-- Who waits waited before or was offered. -/
  waiting : ∀ goalId p, e'.pending.get? goalId = some p →
    e.pending.get? goalId = some p ∨ offered p ∧ p.goal.id = goalId
  /-- Who waited for another module is not lost. -/
  kept : ∀ goalId p, e.pending.get? goalId = some p → p.module ≠ module →
    (∃ q, e'.pending.get? goalId = some q) ∨ ∃ item, e'.store.load "goal" goalId = some item

variable {e e' e'' e₁ : Engine} {module : ModuleId} {gone : IdSet} {offered : PendingGoal → Prop}
  {type id : String} {item : Option Item}

/-- Goals are changed but never deleted. -/
theorem Change.exists_goal (h : e.Change gone offered "goal" id item) :
    ∃ goal, item = some goal := by
  generalize isGoal : "goal" = type at h
  cases h with
  | disabled | installed => exact ⟨_, rfl⟩
  | retracted | ruled | cleared => exact absurd isGoal (by decide)

namespace Partway

/-- A goal that is not there was not there before. -/
theorem new (h : e.Partway module gone offered e')
    (none : e'.store.load "goal" id = Option.none) : e.store.load "goal" id = Option.none := by
  rcases h.items "goal" id with same | change
  · rw [← same, none]
  · obtain ⟨goal, found⟩ := change.exists_goal
    cases none.symm.trans found

/-- One more item is changed. -/
theorem next (h : e.Partway module gone offered e') (change : e.Change gone offered type id item)
    {store : Store} (load : store.load = Holdings.set e'.store.load type id item) :
    e.Partway module gone offered { e' with store } where
  registry := h.registry
  settings := h.settings
  items otherType other := by
    rw [load, Holdings.set]
    split
    · next here =>
      obtain ⟨rfl, rfl⟩ := here
      exact .inr change
    · exact h.items otherType other
  waiting := h.waiting
  kept goalId p found apart := by
    refine (h.kept goalId p found apart).imp_right ?_
    rintro ⟨stored, before⟩
    rw [load, Holdings.set]
    split
    · next here =>
      obtain ⟨rfl, rfl⟩ := here
      exact change.exists_goal
    · exact ⟨stored, before⟩

theorem remove (change : e.Change gone offered type id none) :
    Preserves (e.Partway module gone offered) (Operation.remove type id) :=
  .remove fun _ h => h.next change Store.load_remove

theorem save {item : Item} (change : e.Change gone offered item.type item.id (some item)) :
    Preserves (e.Partway module gone offered) (Operation.save item) :=
  .save fun _ _ h saved => h.next change (Store.save_eq_ok saved).1

theorem disable {g : Goal} (loses : e.store.Loses gone g) :
    Preserves (e.Partway module gone offered) (Goals.disable g) :=
  .disable (fun step => remove (.retracted g loses step)) rfl (save (.disabled g loses))

theorem setGoal {c : PendingGoal} (isOffered : offered c)
    (new : e.store.load "goal" c.goal.id = none) :
    Preserves (e.Partway module gone offered) (Goals.setGoal c.goal.id c.goal) := by
  have sameId (g : Goal) (same : g.kept = (c.goal.withId c.goal.id).kept) : g.id = c.goal.id := by
    have ids := congrArg (fun kept : Goal => kept.metadata.id) same
    exact ids
  have adds (e' : Engine) (h : e.Partway module gone offered e') (accepted : e'.Accepts c.goal) :
      e.Adds offered c :=
    ⟨isOffered, new, (accepts_congr (congrArg Registry.definitions h.registry) h.settings).1
      accepted⟩
  refine .setGoal ?_ ?_ ?_
  · intro e' h accepted notCompiled step
    refine remove (.cleared c (adds e' h accepted) step ?_)
    rw [Goal.rule?, Goal.isCompiled_kept]
    exact if_neg (Bool.eq_false_iff.1 notCompiled)
  · intro e' h accepted g step rule same isRule
    have own : rule.id = step.ruleId c.goal.id :=
      (Goal.id_of_rule? isRule).trans (congrArg step.ruleId (sameId g same))
    -- The rule is that of the goal whose types were looked up, and kept as that of the goal itself.
    have kept := @Goal.map_rule?_congr g c.goal.kept e'.settings.setPropertyAction step
      (same.trans Goal.kept_kept.symm)
    rw [isRule, h.settings] at kept
    obtain ⟨rule', isRule', sameItem⟩ := Option.map_eq_some_iff.1 kept.symm
    have change : e.Change gone offered "rule" _ _ :=
      .ruled c (adds e' h accepted) step rule' isRule'
    rw [sameItem, ← own] at change
    exact save change
  · intro e' h accepted g same
    have own : g.id = c.goal.id := sameId g same
    have sameItem : Item.ofEntity c.goal.kept = Item.ofEntity g := by
      rw [← Goal.ofEntity_kept (g := g), same]
      rfl
    have change : e.Change gone offered "goal" _ _ := .installed c (adds e' h accepted)
    rw [sameItem, ← own] at change
    exact save change

theorem installGoal {c : PendingGoal} (isOffered : offered c) :
    Preserves (e.Partway module gone offered) (Goals.installGoal c) := by
  refine .installGoal ?_ ?_ fun e' h none => setGoal isOffered (h.new none) e' h
  · intro e' item h found
    refine ⟨h.registry, h.settings, h.items, fun goalId p waits => ?_,
      fun goalId p before apart => ?_⟩
    · rw [Table.get?_erase] at waits
      split at waits
      · cases waits
      · exact h.waiting goalId p waits
    · rw [Table.get?_erase]
      split
      · next same => exact .inr ⟨item, same ▸ found⟩
      · exact h.kept goalId p before apart
  · intro e' h
    refine ⟨h.registry, h.settings, h.items, fun goalId p waits => ?_,
      fun goalId p before apart => ?_⟩
    · rw [Table.get?_insert] at waits
      split at waits
      · next same =>
        cases waits
        exact .inr ⟨isOffered, same.symm⟩
      · exact h.waiting goalId p waits
    · rw [Table.get?_insert]
      split
      · exact .inl ⟨c, rfl⟩
      · exact h.kept goalId p before apart

/-- The registry was changed, and maybe what the module had waiting was dropped. -/
theorem start (registry : e'.registry = e.registry) (settings : e'.settings = e.settings)
    (load : e'.store.load = e.store.load)
    (pending : ∀ goalId p, e'.pending.get? goalId = some p → e.pending.get? goalId = some p)
    (kept : ∀ goalId p, e.pending.get? goalId = some p → p.module ≠ module →
      e'.pending.get? goalId = some p) :
    e.Partway module gone offered e' where
  registry := registry
  settings := settings
  items _ _ := .inl (by rw [load])
  waiting goalId p found := .inl (pending goalId p found)
  kept goalId p found apart := .inl ⟨p, kept goalId p found apart⟩

end Partway

/-! ## One step after the other -/

/-- Disabling goals gets partway, unless one cannot be read: then nothing is done. -/
theorem Partway.disableUsing (h : e.Partway module gone offered e₁)
    (load : e₁.store.load = e.store.load) :
    e₁.Ends (Goals.disableUsing gone)
      (fun _ e' => (gone.isEmpty = true ∨ e₁.store.GoalsReadable) ∧ e'.pending = e₁.pending ∧
        e.Partway module gone offered e')
      (fun error e' => (error.IsIo ∧ e'.pending = e₁.pending ∧ e.Partway module gone offered e') ∨
        (e' = e₁ ∧ gone.isEmpty = false ∧ ∃ cause, error = .store cause ∧
          e₁.store.Unreadable cause)) := by
  have pending : OfPending fun e' => e'.pending = e₁.pending := fun _ _ same h => same.trans h
  rw [Goals.disableUsing]
  split
  · next empty => exact ⟨.inl empty, rfl, h⟩
  · next types =>
    simp only [ends_bind, ends_pure]
    refine ends_readGoals.mono ?_ ?_
    · rintro _ e₂ ⟨rfl, readable, rfl⟩
      have loses : ∀ g ∈ (e₂.store.goals.map Prod.snd).filter
          (fun goal => goal.metadata.enabled && goal.referencesAny gone),
          e.store.Loses gone g := by
        intro g member
        obtain ⟨listed, affected⟩ := List.mem_filter.1 member
        obtain ⟨⟨goalId, _⟩, stored, rfl⟩ := List.mem_map.1 listed
        obtain ⟨enabled, uses⟩ := Bool.and_eq_true_iff.1 affected
        have found := Store.mem_goals.1 stored
        rw [Store.goal?, load, ← Store.goal?] at found
        exact ⟨⟨goalId, found⟩, enabled, uses⟩
      generalize (e₂.store.goals.map Prod.snd).filter _ = affected at loses ⊢
      have partway : Preserves (e.Partway module gone offered) (affected.forM Goals.disable) :=
        .forM fun g member => Partway.disable (loses g member)
      have waits : Preserves (fun e' => e'.pending = e₂.pending) (affected.forM Goals.disable) :=
        .forM fun _ _ => .disable (fun _ => pending.remove) rfl pending.save
      refine (((Preserves.iff_ends.1 partway e₂ h).and (Preserves.iff_ends.1 waits e₂ rfl)).and
        ends_disableAll).mono ?_ ?_
      · rintro _ e' ⟨⟨partway, waits⟩, -⟩
        exact ⟨.inr readable, waits, partway⟩
      · rintro error e' ⟨⟨partway, waits⟩, isIo⟩
        exact .inl ⟨isIo, waits, partway⟩
    · rintro _ _ ⟨rfl, cause, rfl, unreadable⟩
      exact .inr ⟨rfl, by simpa using types, cause, rfl, unreadable⟩

/-- Installing what was offered before gets partway. -/
theorem Partway.loadGoals {source : ModuleSource}
    (h : e.Partway source.id gone (e.Offers source) e₁) (pending : e₁.pending = e.pending) :
    e₁.Ends (Goals.loadGoals source) (fun _ e' => e.Partway source.id gone (e.Offers source) e')
      (fun error e' => error.IsIo ∧ e.Partway source.id gone (e.Offers source) e') := by
  have same {candidate : PendingGoal} : e₁.Offers source candidate ↔ e.Offers source candidate := by
    rw [Offers, pending]
    rfl
  have forgotten : e.Partway source.id gone (e.Offers source) (e₁.forget source.id) := by
    refine ⟨h.registry, h.settings, h.items, fun goalId p waits => ?_,
      fun goalId p before apart => ?_⟩
    · exact .inl (pending ▸ (pending_forget.1 waits).1)
    · exact .inl ⟨p, pending_forget.2 ⟨pending ▸ before, apart⟩⟩
  have installs : Preserves (e.Partway source.id gone (e.Offers source))
      (Goals.installGoals (source.goals ++ (e₁.forget source.id).pending.values)) :=
    .installGoals fun c member => Partway.installGoal (same.1 (offers_iff.2 member))
  rw [ends_loadGoals_iff]
  exact ((Preserves.iff_ends.1 installs _ forgotten).and ends_installed).mono
    (fun _ _ done => done.1) fun _ _ failed => ⟨failed.2, failed.1⟩

/-! ## Bringing a module in or out -/

/-- The engine with a module loaded into its registry. -/
def loaded (e : Engine) (source : ModuleSource) : Engine :=
  e.withRegistry (e.registry.load source).1

/-- The condition types that are gone once a module is loaded. -/
def goneOnLoad (e : Engine) (source : ModuleSource) : IdSet :=
  (e.registry.load source).2.1.removed.conditionTypes

/-- The engine with a module dropped from its registry. -/
def unloaded (e : Engine) (module : ModuleId) : Engine :=
  e.withRegistry (e.registry.unload module).1

/-- The condition types that are gone once a module is dropped. -/
def goneOnUnload (e : Engine) (module : ModuleId) : IdSet :=
  (e.registry.contributions module).conditionTypes

/-- Condition types are gone, and a goal of the store cannot be read, which is the error. -/
structure Refuses (e : Engine) (gone : IdSet) (error : ServerError) : Prop where
  types : gone.isEmpty = false
  unreadable : ∃ cause, error = .goal (.store cause) ∧ e.store.Unreadable cause

theorem isIo_goal {error : GoalError} (h : error.IsIo) : (ServerError.goal error).IsIo := by
  obtain ⟨path, rfl⟩ := h
  exact ⟨path, rfl⟩

/-- What can be read of the goals depends on the items alone. -/
theorem readable_congr (load : e'.store.load = e.store.load) :
    (e'.store.GoalsReadable ↔ e.store.GoalsReadable) ∧
      ∀ cause, e'.store.Unreadable cause ↔ e.store.Unreadable cause := by
  have all := @Store.all_congr e'.store e.store "goal" fun id => by rw [load]
  simp only [Store.GoalsReadable, Store.Unreadable, all, implies_true, and_self]

theorem ends_activate_partway {source : ModuleSource} :
    e.Ends (Server.activate source)
      (fun _ _ => (e.goneOnLoad source).isEmpty = true ∨ e.store.GoalsReadable)
      (fun error e' => e'.registry = (e.registry.load source).1 ∧
        (e.Refuses (e.goneOnLoad source) error ∧ e'.store.load = e.store.load ∧
            e'.pending = e.pending ∨
          error.IsIo ∧ (e.loaded source).Partway source.id (e.goneOnLoad source)
            (e.Offers source) e')) := by
  simp only [Server.activate, Server.ofGoals, ends_bind, ends_pure, ends_adapt]
  refine ends_loadModule.mono (fun report e₁ loads => ?_) fun _ _ failed => failed.elim
  have start : (e.loaded source).Partway source.id (e.goneOnLoad source) (e.Offers source) e₁ :=
    .start loads.registry loads.settings loads.load (fun _ _ found => loads.pending ▸ found)
      fun _ _ found _ => loads.pending ▸ found
  rw [loads.removed]
  refine (start.disableUsing loads.load).mono ?_ ?_
  · rintro _ e₂ ⟨readable, pending, partway⟩
    rw [(readable_congr loads.load).1] at readable
    refine (partway.loadGoals (pending.trans loads.pending)).mono (fun _ _ _ => readable) ?_
    rintro error e₃ ⟨isIo, partway⟩
    exact ⟨partway.registry, .inr ⟨isIo_goal isIo, partway⟩⟩
  · rintro error e₂ (⟨isIo, -, partway⟩ | ⟨rfl, types, cause, rfl, unreadable⟩)
    · exact ⟨partway.registry, .inr ⟨isIo_goal isIo, partway⟩⟩
    · rw [(readable_congr loads.load).2] at unreadable
      exact ⟨loads.registry, .inl ⟨⟨types, cause, rfl, unreadable⟩, loads.load, loads.pending⟩⟩

theorem ends_deactivate_partway {module : ModuleId} :
    e.Ends (Server.deactivate module)
      (fun _ _ => (e.goneOnUnload module).isEmpty = true ∨ e.store.GoalsReadable)
      (fun error e' => e'.registry = (e.registry.unload module).1 ∧
        e'.pending = (e.forget module).pending ∧
        (e.Refuses (e.goneOnUnload module) error ∧ e'.store.load = e.store.load ∨
          error.IsIo ∧ (e.unloaded module).Partway module (e.goneOnUnload module)
            (fun _ => False) e')) := by
  simp only [Server.deactivate, Operation.unloadModule, Goals.forgetGoals, Server.ofGoals,
    ends_bind, ends_get, ends_set, ends_modify, ends_pure, ends_adapt]
  have start : (e.unloaded module).Partway module (e.goneOnUnload module) (fun _ => False)
      ((e.unloaded module).forget module) :=
    .start rfl rfl rfl (fun _ _ found => (pending_forget.1 found).1)
      fun _ _ found apart => pending_forget.2 ⟨found, apart⟩
  refine (start.disableUsing rfl).mono (fun _ _ done => done.1) ?_
  rintro error e' (⟨isIo, pending, partway⟩ | ⟨rfl, types, cause, rfl, unreadable⟩)
  · exact ⟨partway.registry, pending, .inr ⟨isIo_goal isIo, partway⟩⟩
  · exact ⟨rfl, rfl, .inl ⟨⟨types, cause, rfl, unreadable⟩, rfl⟩⟩

end Engine

/-- Whatever the error, bringing a module in or out leaves the registry as loading or dropping the
module does. If a goal cannot be read, which matters only when condition types are gone, no item has
changed, and of what waits only what a dropped module had waiting. All other errors are of the
files: then goals, rules and what waits are partway, and nothing is lost that waits for others. -/
theorem Server.errors_keep_changes (e : Engine) :
    (∀ source, e.Ends (Server.activate source)
      (fun _ _ => (e.goneOnLoad source).isEmpty = true ∨ e.store.GoalsReadable)
      fun error e' => e'.registry = (e.registry.load source).1 ∧
        (e.Refuses (e.goneOnLoad source) error ∧ e'.store.load = e.store.load ∧
            e'.pending = e.pending ∨
          error.IsIo ∧ (e.loaded source).Partway source.id (e.goneOnLoad source)
            (e.Offers source) e')) ∧
    ∀ module, e.Ends (Server.deactivate module)
      (fun _ _ => (e.goneOnUnload module).isEmpty = true ∨ e.store.GoalsReadable)
      fun error e' => e'.registry = (e.registry.unload module).1 ∧
        e'.pending = (e.forget module).pending ∧
        (e.Refuses (e.goneOnUnload module) error ∧ e'.store.load = e.store.load ∨
          error.IsIo ∧ (e.unloaded module).Partway module (e.goneOnUnload module)
            (fun _ => False) e') :=
  ⟨fun _ => Engine.ends_activate_partway, fun _ => Engine.ends_deactivate_partway⟩

/-- An item among the goals that is none. -/
def noGoal : Item where
  id := "x"
  type := "goal"
  body := []

/-- A module with a goal that has no rules and a goal that has some. -/
def halfForms : ModuleSource where
  id := "forms"
  list
    | .conditions => { documents := .ok [bareDocument "formSubmit"] }
    | .actions => { documents := .ok [bareDocument "setPropertyAction"] }
    | .goals => { documents := .ok [
        ⟨"visit", "visit", "\x7b\"metadata\":\x7b\"id\":\"visit\"\x7d\x7d"⟩,
        goalDocument "signup" "formSubmit"] }
    | _ => { documents := .ok [] }

/-- A project with a file where the directory of the rules goes. -/
def misplaced : FileTree where
  nodes := Table.empty.insert "/srv/.ctx/data/rule" (.file (.text ""))

/-- A module that cannot be taken out because of a goal that is none is gone all the same, with what
it had waiting; and of a module whose rules cannot be written one goal is stored. -/
theorem Server.errors_undo_nothing :
    (∃ report start e error e', ({} : Engine).outcome (Server.activate finalForms) =
        (.ok report, start) ∧ start.outcome (Operation.save noGoal) = (.ok (), e) ∧
      e.outcome (Server.deactivate "forms") = (.error error, e') ∧
      e'.registry.definitions ≠ e.registry.definitions ∧ e'.pending ≠ e.pending) ∧
    ∃ start error e', Server.openOn misplaced (.forProject "/srv") = .ok start ∧
      start.outcome (Server.activate halfForms) = (.error error, e') ∧
      e'.registry.definitions ≠ start.registry.definitions ∧
      e'.store.load "goal" "visit" ≠ start.store.load "goal" "visit" := by
  constructor
  · have brought :
        (({} : Engine).outcome (Server.activate finalForms)).1.toOption.isSome = true := by
      decide +kernel
    obtain ⟨report, brought⟩ := Option.isSome_iff_exists.1 brought
    have brought := Engine.outcome_of_toOption brought
    have ran : let start := (({} : Engine).outcome (Server.activate finalForms)).2
        let saved := start.outcome (Operation.save noGoal)
        let dropped := saved.2.outcome (Server.deactivate "forms")
        saved.1.toOption = some () ∧ dropped.1.toOption.isNone = true ∧
          saved.2.registry.definitions.conditionTypes.keys = ["formSubmit"] ∧
          dropped.2.registry.definitions.conditionTypes.keys = [] ∧
          saved.2.pending.keys = ["payment"] ∧ dropped.2.pending.keys = [] := by
      decide +kernel
    generalize (({} : Engine).outcome (Server.activate finalForms)).2 = start at brought ran
    obtain ⟨saved, failed, types, noTypes, waits, noneWaits⟩ := ran
    have saved := Engine.outcome_of_toOption saved
    obtain ⟨error, failed⟩ := Engine.outcome_of_toOption_none (Option.isNone_iff_eq_none.1 failed)
    refine ⟨report, start, _, error, _, brought, saved, failed, fun same => ?_, fun same => ?_⟩
    · rw [same, types] at noTypes
      cases noTypes
    · rw [same, waits] at noneWaits
      cases noneWaits
  · have ran : ((Server.openOn misplaced (.forProject "/srv")).toOption.map fun start =>
        let brought := start.outcome (Server.activate halfForms)
        (brought.1.toOption.isNone, start.registry.definitions.conditionTypes.keys,
          brought.2.registry.definitions.conditionTypes.keys,
          (start.store.load "goal" "visit").isSome,
          (brought.2.store.load "goal" "visit").isSome)) =
        some (true, [], ["formSubmit"], false, true) := by decide +kernel
    obtain ⟨start, opened, ran⟩ := Option.map_eq_some_iff.1 ran
    simp only [Prod.mk.injEq] at ran
    obtain ⟨failed, noTypes, types, notThere, there⟩ := ran
    obtain ⟨error, failed⟩ := Engine.outcome_of_toOption_none (Option.isNone_iff_eq_none.1 failed)
    refine ⟨start, error, _, toOption_eq_some.1 opened, failed, fun same => ?_, fun same => ?_⟩
    · rw [same, noTypes] at types
      cases types
    · rw [same, notThere] at there
      cases there

end Clickstream
