import Mathlib.Data.List.Induction
import Clickstream.Proofs.Deactivation
import Clickstream.Proofs.WaitingGoals
import Clickstream.Server.Lifecycle

/-! # Which predefined goals are lost

While modules come and go, a predefined goal is stored or waits. It is lost only while it waits: a
call for the module that it waits for forgets it, and unless that call or a later one ships it
again, it is neither stored nor waiting in the end. This also happens when the module is activated
again and its goals cannot be listed, and when another module ships a goal with the same id.
-/

namespace Clickstream

namespace LifecycleCommand

/-- The module that comes or goes. -/
def module : LifecycleCommand → ModuleId
  | activate source => source.id
  | deactivate module => module

/-- A module comes and ships a goal with some id. -/
def Ships (command : LifecycleCommand) (goalId : String) : Prop :=
  ∃ source, command = activate source ∧ ∃ c ∈ source.goals, c.goal.id = goalId

end LifecycleCommand

namespace Engine

variable {e e' : Engine} {settings : GoalSettings} {exempt : Goal → Prop} {goalId : String}
  {source : ModuleSource} {module : ModuleId} {command : LifecycleCommand}

def Stores (e : Engine) (goalId : String) : Prop :=
  ∃ item, e.store.load "goal" goalId = some item

/-- A goal waits for a module. -/
def Waits (e : Engine) (goalId : String) (module : ModuleId) : Prop :=
  ∃ waiting, e.pending.get? goalId = some waiting ∧ waiting.module = module

/-- There is a goal with some id, or it waits. -/
def Has (e : Engine) (goalId : String) : Prop :=
  e.Stores goalId ∨ ∃ module, e.Waits goalId module

/-- An engine that modules were brought to: no goal both is stored and waits. -/
structure Tidy (e : Engine) (settings : GoalSettings) : Prop where
  intact : e.Intact settings
  own : e.WaitsByOwnId
  apart : ∀ goalId, e.Stores goalId → e.pending.get? goalId = none

/-! ## One call -/

/-- Disabling goals keeps which ids have a goal. -/
theorem Consistent.stores_iff (h : e.Consistent settings exempt) {ids : IdSet} :
    e.Ends (Goals.disableUsing ids)
      (fun _ e' => (∀ goalId, e'.Stores goalId ↔ e.Stores goalId) ∧ e'.pending = e.pending)
      (fun error _ => error.IsIo) := by
  refine (ends_disableUsing h.readable).mono (fun _ e' done => ?_) fun _ _ failed => failed
  have changed := done.1
  refine ⟨fun goalId => ?_, changed.pending⟩
  rw [Stores, changed.load]
  rcases @Holdings.disabling_goal e.store.load e.settings.setPropertyAction
    ((e.store.using ids).map Prod.snd) goalId with ⟨g, member, rfl, item⟩ | ⟨_, same⟩
  -- What was disabled stood under its own id before.
  · obtain ⟨⟨otherId, g⟩, listed, rfl⟩ := List.mem_map.1 member
    have found := (Store.mem_using.1 listed).1
    obtain rfl := h.own found
    obtain ⟨before, there, _⟩ := Option.bind_eq_some_iff.1 found
    exact ⟨fun _ => ⟨before, there⟩, fun _ => ⟨_, item⟩⟩
  · rw [same]
    rfl

/-- After goals were tried, those that were there and those that were tried are there. -/
theorem Installed.has_iff {candidates : List PendingGoal} {ids : List String}
    (done : e.Installed candidates ids e')
    (all : ∀ goalId p, e.pending.get? goalId = some p → ∃ c ∈ candidates, c.goal.id = goalId) :
    e'.Has goalId ↔ e.Stores goalId ∨ ∃ c ∈ candidates, c.goal.id = goalId := by
  by_cases tried : ∃ c ∈ candidates, c.goal.id = goalId
  · obtain ⟨c, member, rfl⟩ := tried
    refine ⟨fun _ => .inr ⟨c, member, rfl⟩, fun _ => ?_⟩
    rcases done.placed c member with stored | ⟨p, waits⟩
    · exact .inl stored
    · exact .inr ⟨p.module, p, waits, rfl⟩
  · have untried : ∀ c ∈ candidates, c.goal.id ≠ goalId := by
      intro c member same
      exact tried ⟨c, member, same⟩
    obtain ⟨load, pending⟩ := done.others goalId untried
    constructor
    · rintro (⟨item, found⟩ | ⟨_, p, found, _⟩)
      · exact .inl ⟨item, load ▸ found⟩
      · exact .inr (all goalId p (pending ▸ found))
    · rintro (⟨item, found⟩ | again)
      · exact .inl ⟨item, load.trans found⟩
      · exact absurd again tried

theorem has_iff_of_pending (stores : e'.Stores goalId ↔ e.Stores goalId)
    (pending : e'.pending = e.pending) : e'.Has goalId ↔ e.Has goalId := by
  rw [Has, Has, stores]
  simp only [Waits, pending]

theorem Tidy.has_forget (h : e.Tidy settings) :
    (e.forget module).Has goalId ↔ e.Has goalId ∧ ¬ e.Waits goalId module := by
  constructor
  · rintro (⟨item, stored⟩ | ⟨_, p, waits, rfl⟩)
    · refine ⟨.inl ⟨item, stored⟩, ?_⟩
      rintro ⟨p, waits, _⟩
      rw [h.apart goalId ⟨item, stored⟩] at waits
      cases waits
    · obtain ⟨waits, other⟩ := pending_forget.1 waits
      refine ⟨.inr ⟨_, p, waits, rfl⟩, ?_⟩
      rintro ⟨p', waits', same⟩
      rw [waits] at waits'
      cases waits'
      exact other same
  · rintro ⟨stored | ⟨_, p, waits, rfl⟩, notForModule⟩
    · exact .inl stored
    · refine .inr ⟨_, p, pending_forget.2 ⟨waits, fun same => ?_⟩, rfl⟩
      exact notForModule ⟨p, waits, same⟩

/-- What a call does to the goals that are there: its module is forgotten, what it ships is
there. -/
structure Changes (e : Engine) (module : ModuleId) (ships : String → Prop) (e' : Engine) :
    Prop where
  has : ∀ goalId, e'.Has goalId ↔ ships goalId ∨ e.Has goalId ∧ ¬ e.Waits goalId module
  waits : ∀ goalId other, e'.Waits goalId other →
    other = module ∧ ships goalId ∨ e.Waits goalId other

theorem Tidy.loadGoals (h : e.Tidy settings) :
    e.Ends (Goals.loadGoals source)
      (fun _ e' => e'.Tidy settings ∧
        e.Changes source.id (fun goalId => ∃ c ∈ source.goals, c.goal.id = goalId) e')
      (fun error _ => error.IsIo) := by
  have ends := ((@ends_loadGoals e source).and h.own.loadGoals).and (Consistent.loadGoals h.intact)
  refine ends.mono ?_ fun _ _ failed => failed.2
  rintro _ e' ⟨⟨⟨ids, rfl, done⟩, settles⟩, intact⟩
  have own : ∀ goalId p, (e.forget source.id).pending.get? goalId = some p → p.goal.id = goalId :=
    fun goalId p found => h.own goalId p (pending_forget.1 found).1
  refine ⟨⟨intact, fun goalId p found => (settles.waiting goalId p found).1, ?_⟩,
    fun goalId => ?_, fun goalId other => ?_⟩
  · rintro goalId ⟨item, stored⟩
    cases found : e'.pending.get? goalId with
    | none => rfl
    | some p =>
      rw [(settles.waiting goalId p found).2.1] at stored
      cases stored
  · have tried : ∀ goalId p, (e.forget source.id).pending.get? goalId = some p →
        ∃ c ∈ source.goals ++ (e.forget source.id).pending.values, c.goal.id = goalId := by
      intro goalId p found
      refine ⟨p, List.mem_append_right _ (Table.mem_values.2 ⟨goalId, found⟩), own goalId p found⟩
    rw [done.has_iff tried, ← h.has_forget]
    constructor
    · rintro (stored | ⟨c, member, rfl⟩)
      · exact .inr (.inl stored)
      · rcases List.mem_append.1 member with shipped | waiting
        · exact .inl ⟨c, shipped, rfl⟩
        · obtain ⟨goalId, found⟩ := Table.mem_values.1 waiting
          obtain rfl := own goalId c found
          exact .inr (.inr ⟨c.module, c, found, rfl⟩)
    · rintro (⟨c, shipped, rfl⟩ | stored | ⟨_, p, found, _⟩)
      · exact .inr ⟨c, List.mem_append_left _ shipped, rfl⟩
      · exact .inl stored
      · exact .inr (tried goalId p found)
  · rintro ⟨p, found, rfl⟩
    have old : (e.forget source.id).pending.get? goalId = some p → e.Waits goalId p.module :=
      fun before => ⟨p, (pending_forget.1 before).1, rfl⟩
    rcases done.waiting goalId p found with ⟨before, _⟩ | ⟨member, rfl, _⟩
    · exact .inr (old before)
    · rcases List.mem_append.1 member with shipped | waiting
      · exact .inl ⟨ModuleSource.module_of_mem_goals shipped, p, shipped, rfl⟩
      · obtain ⟨goalId, before⟩ := Table.mem_values.1 waiting
        rw [own goalId p before] at old ⊢
        exact .inr (old before)

theorem Tidy.activate (h : e.Tidy settings) :
    e.Ends (Server.activate source)
      (fun _ e' => e'.Tidy settings ∧
        e.Changes source.id (fun goalId => ∃ c ∈ source.goals, c.goal.id = goalId) e')
      (fun error _ => error.IsIo) := by
  simp only [Server.activate, ends_bind, ends_pure]
  refine (ends_loadModule.and h.intact.loadModule).mono ?_ fun _ _ failed => failed.1.elim
  rintro report e₁ ⟨loads, consistent⟩
  have disabled := (@Consistent.stores_iff _ _ _ consistent report.removed.conditionTypes).and
    consistent.disableUsing
  refine ends_ofGoals (disabled.mono ?_ fun _ _ failed => failed.1)
  rintro _ e₂ ⟨⟨stores, pending⟩, intact⟩
  -- Up to here the same ids have a goal, and the same goals wait.
  have same : e₂.pending = e.pending := pending.trans loads.pending
  have storesSame (goalId : String) : e₂.Stores goalId ↔ e.Stores goalId := by
    rw [stores, Stores, Stores, loads.load]
  have tidy : e₂.Tidy settings := by
    refine ⟨intact, WaitsByOwnId.ofPending _ _ same h.own, fun goalId stored => ?_⟩
    rw [same]
    exact h.apart goalId ((storesSame goalId).1 stored)
  refine ends_ofGoals (tidy.loadGoals.mono ?_ fun _ _ failed => failed)
  rintro _ e₃ ⟨tidy', changes⟩
  have waitsSame (goalId : String) (module : ModuleId) :
      e₂.Waits goalId module ↔ e.Waits goalId module := by
    rw [Waits, same, ← Waits]
  refine ⟨tidy', fun goalId => ?_, fun goalId other => ?_⟩
  · rw [changes.has, has_iff_of_pending (storesSame goalId) same, waitsSame]
  · rw [← waitsSame]
    exact changes.waits goalId other

theorem Tidy.deactivate (h : e.Tidy settings) :
    e.Ends (Server.deactivate module)
      (fun _ e' => e'.Tidy settings ∧ e.Changes module (fun _ => False) e')
      (fun error _ => error.IsIo) := by
  simp only [Server.deactivate, Operation.unloadModule, Goals.forgetGoals, ends_bind, ends_get,
    ends_set, ends_modify, ends_pure]
  have gone := h.intact.changeRegistry fun id => Registry.contains_of_reports
    (@Registry.reports_unload e.registry module)
  have canonical : ∀ goalId waiting, (e.forget module).pending.get? goalId = some waiting →
      waiting.goal.IsCanonical := by
    intro goalId waiting found
    exact h.intact.pending goalId waiting (pending_forget.1 found).1
  have consistent := gone.setPending canonical
  have disabled := (@Consistent.stores_iff _ _ _ consistent
    (e.registry.unload module).2.conditionTypes).and consistent.disableUsing
  refine ends_ofGoals (disabled.mono ?_ fun _ _ failed => failed.1)
  rintro _ e' ⟨⟨stores, pending⟩, intact⟩
  have same : e'.pending = (e.forget module).pending := pending
  refine ⟨⟨intact, ?_, fun goalId stored => ?_⟩, fun goalId => ?_, fun goalId other => ?_⟩
  · exact WaitsByOwnId.ofPending _ _ same h.own.forget
  · rw [same, forget, Table.get?_filter, h.apart goalId ((stores goalId).1 stored)]
    rfl
  · rw [false_or, ← h.has_forget]
    exact has_iff_of_pending (e := e.forget module) (stores goalId) same
  · rintro ⟨p, found, rfl⟩
    rw [same] at found
    exact .inr ⟨p, (pending_forget.1 found).1, rfl⟩

theorem Tidy.apply (h : e.Tidy settings) :
    e.Ends command.apply
      (fun _ e' => e'.Tidy settings ∧ e.Changes command.module command.Ships e')
      (fun error _ => error.IsIo) := by
  cases command with
  | activate source =>
    have ships : (LifecycleCommand.activate source).Ships =
        fun goalId => ∃ c ∈ source.goals, c.goal.id = goalId := by
      funext goalId
      simp only [LifecycleCommand.Ships, LifecycleCommand.activate.injEq, exists_eq_left']
    simp only [LifecycleCommand.apply, ends_bind, ends_pure, ships]
    exact h.activate
  | deactivate module =>
    have ships : (LifecycleCommand.deactivate module).Ships = fun _ => False := by
      funext goalId
      simp only [LifecycleCommand.Ships, reduceCtorEq, false_and, exists_false]
    simp only [LifecycleCommand.apply, ends_bind, ends_pure, ships]
    exact h.deactivate

/-! ## Runs -/

/-- The engine after calls that all succeed. -/
def carried? (start : Engine) : List LifecycleCommand → Option Engine
  | [] => some start
  | command :: rest =>
    match start.outcome command.apply with
    | (.ok _, next) => next.carried? rest
    | (.error _, _) => none

section

variable {start : Engine} {calls rest : List LifecycleCommand}

theorem carried?_append :
    start.carried? (calls ++ rest) = (start.carried? calls).bind (·.carried? rest) := by
  induction calls generalizing start with
  | nil => rfl
  | cons command others ih =>
    rw [List.cons_append, carried?, carried?]
    rcases start.outcome command.apply with ⟨_ | _, next⟩
    · rfl
    · exact ih

theorem carried?_concat : start.carried? (calls ++ [command]) = some e ↔
    ∃ between, start.carried? calls = some between ∧
      between.outcome command.apply = (.ok (), e) := by
  rw [carried?_append, Option.bind_eq_some_iff]
  refine exists_congr fun between => and_congr_right fun _ => ?_
  rw [carried?]
  rcases between.outcome command.apply with ⟨_ | _, next⟩ <;> simp [carried?]

theorem Tidy.carried (h : start.Tidy settings) (run : start.carried? calls = some e) :
    e.Tidy settings := by
  induction calls using List.reverseRecOn generalizing e with
  | nil =>
    cases run
    exact h
  | append_singleton calls command ih =>
    obtain ⟨between, before, ended⟩ := carried?_concat.1 run
    exact ((ih before).apply.well ended).1

/-- At some call of a run a goal waits for the module of the call, and neither that call nor a later
one ships it. -/
def Dropped (start : Engine) (calls : List LifecycleCommand) (goalId : String) : Prop :=
  ∃ before command after e, calls = before ++ command :: after ∧
    start.carried? before = some e ∧ e.Waits goalId command.module ∧
    ∀ c ∈ command :: after, ¬ c.Ships goalId

theorem not_dropped_nil : ¬ start.Dropped [] goalId := by
  rintro ⟨before, command, after, e, split, _⟩
  simp at split

/-- One more call drops what waits for its module, unless it ships it. -/
theorem dropped_concat (run : start.carried? calls = some e) :
    start.Dropped (calls ++ [command]) goalId ↔ ¬ command.Ships goalId ∧
      (start.Dropped calls goalId ∨ e.Waits goalId command.module) := by
  constructor
  · rintro ⟨before, c, after, between, split, reached, waits, later⟩
    rcases List.eq_nil_or_concat after with rfl | ⟨after, last, rfl⟩
    · obtain ⟨rfl, same⟩ := List.append_inj' split rfl
      obtain rfl := List.singleton_inj.1 same
      rw [run] at reached
      cases reached
      exact ⟨later _ List.mem_cons_self, .inr waits⟩
    · rw [List.concat_eq_append, ← List.cons_append, ← List.append_assoc] at split
      obtain ⟨rfl, same⟩ := List.append_inj' split rfl
      obtain rfl := List.singleton_inj.1 same
      simp only [List.concat_eq_append, List.mem_cons, List.mem_append, List.not_mem_nil, or_false]
        at later
      refine ⟨later command (.inr (.inr rfl)), .inl ⟨before, c, after, between, rfl, reached,
        waits, fun c' member => later c' ?_⟩⟩
      rcases List.mem_cons.1 member with here | inAfter
      · exact .inl here
      · exact .inr (.inl inAfter)
  · rintro ⟨notShipped, ⟨before, c, after, between, rfl, reached, waits, later⟩ | waits⟩
    · refine ⟨before, c, after ++ [command], between, by simp, reached, waits, ?_⟩
      intro c' member
      rw [← List.cons_append, List.mem_append, List.mem_singleton] at member
      rcases member with inside | rfl
      · exact later c' inside
      · exact notShipped
    · exact ⟨calls, command, [], e, rfl, run, waits, List.forall_mem_singleton.2 notShipped⟩

/-- In the end a goal is stored or waits exactly if it was there at first or shipped on the way, and
not dropped. -/
theorem Tidy.has_iff (h : start.Tidy settings) (run : start.carried? calls = some e) :
    e.Has goalId ↔
      (start.Has goalId ∨ ∃ c ∈ calls, c.Ships goalId) ∧ ¬ start.Dropped calls goalId := by
  induction calls using List.reverseRecOn generalizing e with
  | nil =>
    cases run
    simp [not_dropped_nil]
  | append_singleton calls command ih =>
    obtain ⟨between, before, ended⟩ := carried?_concat.1 run
    have changes := ((h.carried before).apply.well ended).2
    rw [changes.has, ih before, dropped_concat before]
    simp only [List.mem_append, List.mem_singleton, or_and_right, exists_or, exists_eq_left]
    grind

/-- What waits for a module was shipped by it. -/
theorem Tidy.shipped_of_waits (h : start.Tidy settings) (none : start.pending = {})
    (run : start.carried? calls = some e) (waits : e.Waits goalId module) :
    ∃ c ∈ calls, c.module = module ∧ c.Ships goalId := by
  induction calls using List.reverseRecOn generalizing e with
  | nil =>
    cases run
    obtain ⟨p, found, _⟩ := waits
    rw [none] at found
    cases found
  | append_singleton calls command ih =>
    obtain ⟨between, before, ended⟩ := carried?_concat.1 run
    have changes := ((h.carried before).apply.well ended).2
    rcases changes.waits goalId module waits with ⟨rfl, ships⟩ | already
    · exact ⟨command, by simp, rfl, ships⟩
    · obtain ⟨c, member, same, ships⟩ := ih before already
      exact ⟨c, List.mem_append_left _ member, same, ships⟩

end

end Engine

/-! ## What modules are owed -/

namespace LifecycleCommand

variable {calls : List LifecycleCommand} {module : ModuleId} {goalId : String}

/-- The last call for a module brought it in. -/
def Active (calls : List LifecycleCommand) (module : ModuleId) : Prop :=
  ∃ before source after, calls = before ++ activate source :: after ∧ source.id = module ∧
    ∀ c ∈ after, c.module ≠ module

/-- A module is active, and shipped a goal when its goals could last be listed. -/
structure Owed (calls : List LifecycleCommand) (module : ModuleId) (goalId : String) : Prop where
  active : Active calls module
  shipped : ∃ before source after, calls = before ++ activate source :: after ∧
    source.id = module ∧ source.lists .goals = true ∧ (∃ c ∈ source.goals, c.goal.id = goalId) ∧
    ∀ later, activate later ∈ after → later.id = module → later.lists .goals = false

theorem Owed.ships (owed : Owed calls module goalId) : ∃ c ∈ calls, c.Ships goalId := by
  obtain ⟨before, source, after, rfl, _, _, ships, _⟩ := owed.shipped
  exact ⟨activate source, by simp, source, rfl, ships⟩

end LifecycleCommand

theorem Server.tidy_of_openOn {files : FileTree} {config : ServerConfig} {start : Engine}
    (empty : files.children config.dataDirectory = [])
    (opened : Server.openOn files config = .ok start) : start.Tidy start.settings := by
  have nothing := Server.assembled_of_openOn empty opened
  have noneWait (goalId : String) : start.pending.get? goalId = none := by
    rw [(Server.items_of_openOn empty opened).2.1]
    rfl
  refine ⟨nothing.intact, fun goalId waiting found => ?_, fun goalId _ => noneWait goalId⟩
  rw [noneWait] at found
  cases found

/-- While modules come and go on a server that was opened on an empty directory, a goal that an
active module is owed is stored or waits, unless it was dropped while it waited. -/
theorem Server.has_iff_not_dropped {files : FileTree} {config : ServerConfig} {start e : Engine}
    {calls : List LifecycleCommand} {module : ModuleId} {goalId : String}
    (empty : files.children config.dataDirectory = [])
    (opened : Server.openOn files config = .ok start) (run : start.carried? calls = some e)
    (owed : LifecycleCommand.Owed calls module goalId) :
    e.Has goalId ↔ ¬ start.Dropped calls goalId := by
  rw [(Server.tidy_of_openOn empty opened).has_iff run]
  exact and_iff_right (.inr owed.ships)

theorem signupModule_ships : ∃ c ∈ signupModule.goals, c.goal.id = "signup" := by
  have ids : signupModule.goals.map (·.goal.id) = ["signup"] := by decide +kernel
  exact List.mem_map.1 (ids ▸ List.mem_singleton_self "signup")

/-- A goal that waits for its types is stored once they are there. -/
theorem Server.has_iff_not_dropped_signup :
    ∃ start e, FileTree.children {} (ServerConfig.forProject "/srv").dataDirectory = [] ∧
      Server.openOn {} (.forProject "/srv") = .ok start ∧
      start.carried? [.activate signupModule, .activate formsModule] = some e ∧
      LifecycleCommand.Owed [.activate signupModule, .activate formsModule] "signup" "signup" ∧
      (e.store.all "goal").map Item.id = ["signup"] ∧
      (e.Has "signup" ↔
        ¬ start.Dropped [.activate signupModule, .activate formsModule] "signup") := by
  have empty : FileTree.children {} (ServerConfig.forProject "/srv").dataDirectory = [] := by
    decide +kernel
  have ran : ((Server.openOn {} (.forProject "/srv")).toOption.bind
      (·.carried? [.activate signupModule, .activate formsModule])).map
        (fun e => (e.store.all "goal").map Item.id) = some ["signup"] := by decide +kernel
  have owed : LifecycleCommand.Owed [.activate signupModule, .activate formsModule]
      "signup" "signup" := by
    refine ⟨⟨[], signupModule, [.activate formsModule], rfl, rfl, ?_⟩,
      ⟨[], signupModule, [.activate formsModule], rfl, rfl, rfl, signupModule_ships, ?_⟩⟩
    · exact List.forall_mem_singleton.2 (by decide)
    · intro later member same
      cases List.mem_singleton.1 member
      exact absurd same (by decide)
  obtain ⟨e, ran, ids⟩ := Option.map_eq_some_iff.1 ran
  obtain ⟨start, opened, ran⟩ := Option.bind_eq_some_iff.1 ran
  have isStart := toOption_eq_some.1 opened
  exact ⟨start, e, empty, isStart, ran, owed, ids, has_iff_not_dropped empty isStart ran owed⟩

/-- The same module when its goals cannot be listed. -/
def unlistedModule : ModuleSource where
  id := "signup"
  list
    | .goals => { documents := .error "permission denied" }
    | _ => { documents := .ok [] }

/-- A goal that waits is lost when its module is activated again and its goals cannot be listed. -/
theorem Server.unlisted_goal_lost :
    ∃ start e, Server.openOn {} (.forProject "/srv") = .ok start ∧
      start.carried? [.activate signupModule, .activate unlistedModule] = some e ∧
      LifecycleCommand.Owed [.activate signupModule, .activate unlistedModule] "signup" "signup" ∧
      ¬ e.Has "signup" := by
  have ran : ((Server.openOn {} (.forProject "/srv")).toOption.bind
      (·.carried? [.activate signupModule, .activate unlistedModule])).map
        (fun e => ((e.store.all "goal").map Item.id, e.pending.keys)) = some ([], []) := by
    decide +kernel
  have owed : LifecycleCommand.Owed [.activate signupModule, .activate unlistedModule]
      "signup" "signup" := by
    refine ⟨⟨[.activate signupModule], unlistedModule, [], rfl, rfl, nofun⟩,
      ⟨[], signupModule, [.activate unlistedModule], rfl, rfl, rfl, signupModule_ships, ?_⟩⟩
    intro later member _
    cases List.mem_singleton.1 member
    rfl
  obtain ⟨e, ran, nothing⟩ := Option.map_eq_some_iff.1 ran
  obtain ⟨start, opened, ran⟩ := Option.bind_eq_some_iff.1 ran
  refine ⟨start, e, toOption_eq_some.1 opened, ran, owed, ?_⟩
  rw [Prod.mk.injEq, List.map_eq_nil_iff] at nothing
  rintro (⟨item, found⟩ | ⟨_, waiting, found, _⟩)
  · have listed := Store.mem_all.2 ⟨"signup", found⟩
    rw [nothing.1] at listed
    cases listed
  · have listed := Table.mem_keys.2 (Table.contains_iff.2 ⟨waiting, found⟩)
    rw [nothing.2] at listed
    cases listed

/-- Of two places in a list one comes first, or they are the same. -/
private theorem mem_or_mem_of_split {α : Type} {x y : α} {before after before' after' : List α}
    (same : before ++ x :: after = before' ++ y :: after') : y ∈ x :: after ∨ x ∈ after' := by
  induction before generalizing before' with
  | nil => exact .inl (by rw [← List.nil_append (x :: after), same]; simp)
  | cons z rest ih =>
    cases before' with
    | nil =>
      rw [List.cons_append, List.nil_append, List.cons.injEq] at same
      exact .inr (by rw [← same.2]; simp)
    | cons z' rest' =>
      rw [List.cons_append, List.cons_append, List.cons.injEq] at same
      exact ih same.2

/-- If goals can always be listed, then a call that brings an active module in, or a later one,
ships what the module is owed. -/
theorem LifecycleCommand.Owed.ships_after {before after : List LifecycleCommand}
    {command : LifecycleCommand} {goalId : String}
    (owed : Owed (before ++ command :: after) command.module goalId)
    (listed : ∀ source, activate source ∈ before ++ command :: after →
      source.lists .goals = true) : ∃ c ∈ command :: after, c.Ships goalId := by
  obtain ⟨b₁, last, a₁, isLast, sameLast, none⟩ := owed.active
  obtain ⟨b₀, source, a₀, isSource, sameSource, _, ships, unlisted⟩ := owed.shipped
  have inAfter : activate last ∈ command :: after := by
    rcases mem_or_mem_of_split isLast with member | member
    · exact member
    · exact absurd rfl (none command member)
  -- The last call for the module is the one in which its goals were listed.
  have isLastListed : activate source ∈ activate last :: a₁ := by
    rcases mem_or_mem_of_split (isLast.symm.trans isSource) with member | member
    · exact member
    · have readable := listed last (List.mem_append_right _ inAfter)
      rw [unlisted last member sameLast] at readable
      cases readable
  rcases List.mem_cons.1 isLastListed with same | member
  · exact ⟨activate last, inAfter, source, same.symm, ships⟩
  · exact absurd sameSource (none _ member)

/-- If goals can always be listed and no two modules ship goals with one id, then every goal that an
active module is owed is stored or waits. -/
theorem Server.has_of_separate {files : FileTree} {config : ServerConfig} {start e : Engine}
    {calls : List LifecycleCommand} {module : ModuleId} {goalId : String}
    (empty : files.children config.dataDirectory = [])
    (opened : Server.openOn files config = .ok start) (run : start.carried? calls = some e)
    (listed : ∀ source, LifecycleCommand.activate source ∈ calls → source.lists .goals = true)
    (apart : ∀ c ∈ calls, ∀ c' ∈ calls, c.Ships goalId → c'.Ships goalId → c.module = c'.module)
    (owed : LifecycleCommand.Owed calls module goalId) : e.Has goalId := by
  have tidy := Server.tidy_of_openOn empty opened
  refine (tidy.has_iff run).2 ⟨.inr owed.ships, ?_⟩
  rintro ⟨before, command, after, between, rfl, reached, waits, later⟩
  obtain ⟨c, member, same, ships⟩ :=
    tidy.shipped_of_waits (Server.items_of_openOn empty opened).2.1 reached waits
  obtain ⟨b₀, source, a₀, isSource, rfl, _, shipsHere, _⟩ := owed.shipped
  have inCalls : LifecycleCommand.activate source ∈ before ++ command :: after := by
    rw [isSource]
    simp
  have sameModule :=
    apart c (List.mem_append_left _ member) _ inCalls ships ⟨source, rfl, shipsHere⟩
  have isOwed : LifecycleCommand.Owed (before ++ command :: after) command.module goalId := by
    rw [← same, sameModule]
    exact owed
  obtain ⟨c', member', ships'⟩ := isOwed.ships_after listed
  exact later c' member' ships'

end Clickstream
