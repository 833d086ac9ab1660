import Clickstream.Proofs.ModuleChanges
import Clickstream.Proofs.Opening

/-! # Runs of a server

Any sequence of calls on goals and modules, each carried out on the engine that the one before left,
whether it was turned down or not; only the files of the store must not fail. Goals and rules stay
consistent along every run.
-/

namespace Clickstream

/-- A call that a server takes. -/
inductive ServerCall where
  /-- Create or replace a goal, its parameters in canonical form. -/
  | setGoal (goalId : String) (goal : Goal) (canonical : goal.IsCanonical)
  /-- Create a goal without conditions. -/
  | createGoal (goalId name description : String)
  /-- Delete a goal. -/
  | removeGoal (goalId : String)
  /-- Install the goals that a module ships. -/
  | loadGoals (source : ModuleSource)
  /-- Disable the goals that use some condition types. -/
  | disableUsing (ids : IdSet)
  /-- Bring a module in. -/
  | activate (source : ModuleSource)
  /-- Take a module out. -/
  | deactivate (module : ModuleId)

namespace ServerCall

/-- Carry out a call. -/
def operation : ServerCall → Server.ServerOperation Unit
  | setGoal goalId goal _ => Server.ofGoals (Goals.setGoal goalId goal)
  | createGoal goalId name description =>
    Server.ofGoals (Goals.createGoal goalId name description)
  | removeGoal goalId => do let _ ← Server.ofGoals (Goals.removeGoal goalId)
  | loadGoals source => do let _ ← Server.ofGoals (Goals.loadGoals source)
  | disableUsing ids => do let _ ← Server.ofGoals (Goals.disableUsing ids)
  | activate source => do let _ ← Server.activate source
  | deactivate module => do let _ ← Server.deactivate module

end ServerCall

namespace Engine

variable {start e : Engine} {settings : GoalSettings}

/-- The engine after calls, unless the files of its store failed during one of them. -/
def after? (start : Engine) : List ServerCall → Option Engine
  | [] => some start
  | call :: rest =>
    match start.outcome call.operation with
    | (.error (.goal (.store (.io _))), _) => none
    | (_, next) => next.after? rest

theorem Intact.setGoal (h : e.Intact settings) {goalId : String} {goal : Goal}
    (canonical : goal.IsCanonical) :
    e.Ends (Server.ofGoals (Goals.setGoal goalId goal)) (fun _ e' => e'.Intact settings)
      (fun error e' => error.IsIo ∨ e' = e) := by
  rw [Server.ofGoals, ends_adapt]
  refine (Consistent.setGoal h canonical).mono (fun _ _ intact => intact) ?_
  rintro _ _ (⟨path, rfl⟩ | ⟨_, same⟩)
  · exact .inl ⟨path, rfl⟩
  · exact .inr same

/-- Every call leaves an intact engine intact, or nothing changes, or the files failed. -/
theorem Intact.operation (h : e.Intact settings) (call : ServerCall) :
    e.Ends call.operation (fun _ e' => e'.Intact settings)
      (fun error e' => error.IsIo ∨ e' = e) := by
  have weaken {α : Type} {operation : Server.ServerOperation α}
      (ends : e.Ends operation (fun _ e' => e'.Intact settings) fun error _ => error.IsIo) :
      e.Ends (do let _ ← operation) (fun _ e' => e'.Intact settings)
        (fun error e' => error.IsIo ∨ e' = e) := by
    simp only [ends_bind, ends_pure]
    exact ends.mono (fun _ _ intact => intact) fun _ _ failed => .inl failed
  cases call with
  | setGoal goalId goal canonical => exact h.setGoal canonical
  | createGoal goalId name description =>
    refine h.setGoal ⟨?_, ?_⟩ <;> rintro _ ⟨⟩
  | removeGoal goalId => exact weaken (ends_ofGoals (Consistent.removeGoal h))
  | loadGoals source => exact weaken (ends_ofGoals h.loadGoals)
  | disableUsing ids =>
    exact weaken (ends_ofGoals (Consistent.disableUsing (h.mono fun _ _ _ _ none => none.elim)))
  | activate source => exact weaken h.activate
  | deactivate module => exact weaken h.deactivate

/-- Every run keeps an engine intact. -/
theorem Intact.after (h : start.Intact settings) {calls : List ServerCall}
    (run : start.after? calls = some e) : e.Intact settings := by
  induction calls generalizing start with
  | nil => cases run; exact h
  | cons call rest ih =>
    have ends := h.operation call
    rw [after?] at run
    split at run
    · cases run
    · next result next works ended =>
      refine ih ?_ run
      cases result with
      | ok answer => exact ends.well ended
      | error error =>
        rcases ends.badly ended with ⟨path, rfl⟩ | same
        · exact (works path rfl).elim
        -- A call that failed otherwise was turned down, and the next one starts where it did.
        · exact same ▸ h

/-- An engine without goals and rules is intact, whatever goals wait. -/
theorem intact_of_empty (goals : start.store.all "goal" = []) (rules : start.store.all "rule" = [])
    (pending : ∀ goalId waiting, start.pending.get? goalId = some waiting →
      waiting.goal.IsCanonical) : start.Intact start.settings := by
  have none {type id : String} (empty : start.store.all type = []) :
      start.store.load type id = none := by
    cases found : start.store.load type id with
    | none => rfl
    | some item =>
      have member := Store.mem_all.2 ⟨id, found⟩
      rw [empty] at member
      cases member
  refine ⟨rfl, ⟨fun goalId => ⟨.none, ⟨none goals, fun _ => none rules⟩, ?_⟩, ?_⟩, pending⟩
  · rintro _ ⟨⟩
  · intro ruleId item found
    rw [none rules] at found
    cases found

/-- Goals in the store can be read. -/
theorem Intact.exists_goal (h : e.Intact settings) {item : Item}
    (member : item ∈ e.store.all "goal") :
    ∃ g : Goal, item.toEntity Goal = .ok g ∧ e.store.load "goal" g.id = some item ∧
      (g.metadata.enabled = true → e.registry.Knows g) := by
  obtain ⟨goalId, found⟩ := Store.mem_all.1 member
  obtain ⟨g, rfl, _, rfl, kept, known⟩ := h.holdings.exists_goal found
  refine ⟨g, ?_, found, fun enabled => (known enabled).resolve_right id⟩
  rw [Goal.toEntity_ofEntity, kept]

end Engine

/-- Whatever calls a server takes that was opened on an empty directory, the registry knows the
types of every goal in effect. -/
theorem Server.goals_in_effect_known {files : FileTree} {config : ServerConfig} {start e : Engine}
    {calls : List ServerCall} (empty : files.children config.dataDirectory = [])
    (opened : Server.openOn files config = .ok start) (run : start.after? calls = some e) :
    ∀ item ∈ e.store.all "goal", ∃ g : Goal, item.toEntity Goal = .ok g ∧
      (g.metadata.enabled = true → e.registry.Knows g) := by
  obtain ⟨items, pending, _⟩ := Server.items_of_openOn empty opened
  have none (type : String) : start.store.all type = [] := by rw [Store.all, items]; rfl
  have noneWait : ∀ goalId waiting, start.pending.get? goalId = some waiting →
      waiting.goal.IsCanonical := by
    intro goalId waiting found
    rw [pending] at found
    cases found
  have intact := (Engine.intact_of_empty (none "goal") (none "rule") noneWait).after run
  intro item member
  obtain ⟨g, read, _, known⟩ := intact.exists_goal member
  exact ⟨g, read, known⟩

/-- A module with a condition type and the action type of the rules of goals. -/
def formsModule : ModuleSource where
  id := "forms"
  list
    | .conditions =>
      { documents := .ok [⟨"formSubmit", "formSubmit", "\x7b\"id\":\"formSubmit\"\x7d"⟩] }
    | .actions =>
      { documents := .ok [⟨"set", "set", "\x7b\"id\":\"setPropertyAction\"\x7d"⟩] }
    | _ => { documents := .ok [] }

/-- A goal with a condition of that type at either end. -/
def signup : Goal where
  metadata := { id := "signup", name := "Sign up" }
  startEvent := some { typeId := "formSubmit" }
  targetEvent := some { typeId := "formSubmit" }

/-- Bring the module in and set the goal. -/
def signupCalls : List ServerCall :=
  [.activate formsModule, .setGoal "signup" signup ⟨by rintro _ ⟨⟩; rfl, by rintro _ ⟨⟩; rfl⟩]

theorem Server.goals_in_effect_known_signup :
    ∃ start e, FileTree.children {} (ServerConfig.forProject "/srv").dataDirectory = [] ∧
      Server.openOn {} (.forProject "/srv") = .ok start ∧ start.after? signupCalls = some e ∧
      (e.store.all "goal").length = 1 ∧ ∀ item ∈ e.store.all "goal", ∃ g : Goal,
        item.toEntity Goal = .ok g ∧ (g.metadata.enabled = true → e.registry.Knows g) := by
  have empty : FileTree.children {} (ServerConfig.forProject "/srv").dataDirectory = [] := by
    decide +kernel
  have ran : (((Server.openOn {} (.forProject "/srv")).toOption.bind (·.after? signupCalls)).map
      fun e => (e.store.all "goal").length) = some 1 := by decide +kernel
  obtain ⟨e, ran, one⟩ := Option.map_eq_some_iff.1 ran
  obtain ⟨start, opened, ran⟩ := Option.bind_eq_some_iff.1 ran
  cases isStart : Server.openOn {} (.forProject "/srv") with
  | error error => rw [isStart] at opened; cases opened
  | ok start' =>
    rw [isStart] at opened
    cases opened
    exact ⟨start, e, empty, rfl, ran, one, goals_in_effect_known empty isStart ran⟩

/-! ## The rules of stored goals -/

/-- The store keeps a goal. -/
def Store.Keeps (store : Store) (g : Goal) : Prop :=
  ∃ item, store.load "goal" g.id = some item ∧ item.toEntity Goal = .ok g

/-- The rules in the store are those of the goals that are in effect and have both conditions. -/
structure Engine.RulesFollowGoals (e : Engine) (actionType : String) : Prop where
  /-- Every goal item is that of a goal kept under its id. -/
  goals : ∀ item ∈ e.store.all "goal", ∃ g, item.toEntity Goal = .ok g ∧ e.store.Keeps g
  /-- There is a rule exactly for each step of such a goal. -/
  rules : ∀ ruleId, (e.store.load "rule" ruleId).isSome = true ↔
    ∃ (g : Goal) (step : FunnelStep), e.store.Keeps g ∧ g.metadata.enabled = true ∧
      g.startEvent.isSome = true ∧ g.targetEvent.isSome = true ∧ ruleId = step.ruleId g.id
  /-- The rule of a step is hidden, fires on the condition of the step and sets its property. -/
  faithful : ∀ (step : FunnelStep) (g : Goal) (item : Item), e.store.Keeps g →
    e.store.load "rule" (step.ruleId g.id) = some item →
    ∃ (r : Rule) (action : Action), item.toEntity Rule = .ok r ∧ r.metadata.hidden = true ∧
      g.event? step = some r.condition ∧ r.actions = [action] ∧ action.typeId = actionType ∧
      action.parameters.get? "setPropertyName" = some (.string (step.reachedProperty g.id))

namespace Engine

variable {e : Engine} {settings : GoalSettings}

theorem Intact.hasGoal (h : e.Intact settings) {g : Goal} (keeps : e.store.Keeps g) :
    Holdings.HasGoal e.store.load settings.setPropertyAction g.id (some g) ∧ g.kept = g := by
  obtain ⟨item, found, read⟩ := keeps
  obtain ⟨g', rfl, has, _, kept, _⟩ := h.holdings.exists_goal found
  rw [Goal.toEntity_ofEntity, kept] at read
  cases read
  exact ⟨has, kept⟩

theorem Intact.rulesFollowGoals (h : e.Intact settings) :
    e.RulesFollowGoals settings.setPropertyAction := by
  refine ⟨fun item member => ?_, fun ruleId => ⟨fun found => ?_, ?_⟩,
    fun step g item keeps found => ?_⟩
  · obtain ⟨g, read, found, _⟩ := h.exists_goal member
    exact ⟨g, read, item, found, read⟩
  · obtain ⟨item, found⟩ := Option.isSome_iff_exists.1 found
    obtain ⟨step, goalId, rfl⟩ := h.holdings.rules ruleId item found
    obtain ⟨goal, has, stored⟩ := h.holdings.goals goalId
    rw [has.rules step] at found
    obtain ⟨r, isRule, rfl⟩ := Option.map_eq_some_iff.1 found
    obtain ⟨g, rfl, isRule⟩ := Option.bind_eq_some_iff.1 isRule
    obtain ⟨rfl, kept, _⟩ := stored g rfl
    have compiled := Goal.isSome_rule?.1 (Option.isSome_of_eq_some isRule)
    refine ⟨g, step, ⟨_, has.item, ?_⟩, compiled.1, compiled.2.1, compiled.2.2, rfl⟩
    rw [Goal.toEntity_ofEntity, kept]
  · rintro ⟨g, step, keeps, enabled, start, target, rfl⟩
    rw [(h.hasGoal keeps).1.rules step, Option.isSome_map]
    exact Goal.isSome_rule?.2 ⟨enabled, start, target⟩
  · obtain ⟨has, kept⟩ := h.hasGoal keeps
    rw [has.rules step] at found
    obtain ⟨r, isRule, rfl⟩ := Option.map_eq_some_iff.1 found
    obtain ⟨c, event, rfl⟩ := Goal.event_of_rule? isRule
    have same : c.kept = c := by
      have twice := @Goal.event?_kept g step
      rw [kept, event] at twice
      exact (Option.some.inj twice).symm
    refine ⟨_, _, Rule.toEntity_ofEntity, rfl, ?_, rfl, rfl, ?_⟩
    · rw [event]
      exact congrArg some same.symm
    · simp only [Action.kept, Action.withParameter, Json.ordered, Json.canonicalFields,
        Json.canonical, Fields.sorted, Fields.insert, List.foldl_cons, List.foldl_nil,
        String.reduceEq, String.reduceLT, ↓reduceIte]
      rfl

end Engine

/-- Whatever calls are carried out on a store without goals and rules, its rules are those of its
goals, and a goal that is turned down changes neither. -/
theorem Engine.rules_follow_goals {start e : Engine} {calls : List ServerCall}
    (goals : start.store.all "goal" = []) (rules : start.store.all "rule" = [])
    (pending : ∀ goalId waiting, start.pending.get? goalId = some waiting →
      waiting.goal.IsCanonical) (run : start.after? calls = some e) :
    e.RulesFollowGoals start.settings.setPropertyAction ∧
      ∀ (goalId : String) (goal : Goal) (error : GoalError) (e' : Engine),
        e.outcome (Goals.setGoal goalId goal) = (.error error, e') →
          error.IsRejection → e' = e := by
  have intact := (Engine.intact_of_empty goals rules pending).after run
  exact ⟨intact.rulesFollowGoals, fun _ _ _ _ ended rejected => eq_of_rejected ended rejected⟩

theorem Engine.rules_follow_goals_signup :
    ∃ e, ({} : Engine).after? signupCalls = some e ∧
      (e.store.all "rule").map Item.id = ["signup.startEvent", "signup.targetEvent"] ∧
      e.RulesFollowGoals "setPropertyAction" ∧
      ∀ (goalId : String) (goal : Goal) (error : GoalError) (e' : Engine),
        e.outcome (Goals.setGoal goalId goal) = (.error error, e') →
          error.IsRejection → e' = e := by
  have ran : (({} : Engine).after? signupCalls).map (fun e => (e.store.all "rule").map Item.id) =
      some ["signup.startEvent", "signup.targetEvent"] := by decide +kernel
  obtain ⟨e, ran, ids⟩ := Option.map_eq_some_iff.1 ran
  have noneWait : ∀ goalId waiting, ({} : Engine).pending.get? goalId = some waiting →
      waiting.goal.IsCanonical := by
    intro goalId waiting found
    cases found
  exact ⟨e, ran, ids, rules_follow_goals rfl rfl noneWait ran⟩

end Clickstream
