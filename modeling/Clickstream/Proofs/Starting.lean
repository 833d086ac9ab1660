import Clickstream.Cli.Program
import Clickstream.Proofs.Deactivation
import Clickstream.Proofs.Discovery
import Clickstream.Proofs.LastRead
import Clickstream.Proofs.Predefined

/-! # What a program finds when it starts

A program opens the data of earlier ones and activates every module once. No definition goes on the
way, so no goal is disabled: the goals in the data stay as they were left, also those whose types
have gone since. All other goals were installed by this program, which knows their types.
-/

namespace Clickstream

/-! ## Programs that succeed -/

namespace Cli

/-- The answer of a program, or the line it stopped with, and the shell that it leaves. -/
def Shell.outcome {α : Type} (shell : Shell) (program : Program α) : Except String α × Shell :=
  ((ExceptT.run program).run shell).value

namespace Program

variable {ε α β : Type} {shell shell' : Shell} {answer : α}

theorem outcome_bind {first : Program β} {next : β → Program α} :
    shell.outcome (first >>= next) = match shell.outcome first with
      | (.ok b, between) => between.outcome (next b)
      | (.error line, between) => (.error line, between) := by
  simp only [Shell.outcome, ExceptT.run_bind, StateT.run_bind, Logged.value_bind]
  rcases (StateT.run (ExceptT.run first) shell).value with ⟨_ | b, between⟩ <;> rfl

theorem bind_eq_ok {first : Program β} {next : β → Program α} :
    shell.outcome (first >>= next) = (.ok answer, shell') ↔
      ∃ b between, shell.outcome first = (.ok b, between) ∧
        between.outcome (next b) = (.ok answer, shell') := by
  rw [outcome_bind]
  rcases shell.outcome first with ⟨_ | b, between⟩
  · simp
  · simp

theorem outcome_operate {message : ε → String} {operation : Operation ε α} :
    shell.outcome (operate message operation) = match shell.engine.outcome operation with
      | (.ok answer, engine) => (.ok answer, { shell with engine })
      | (.error e, engine) => (.error ("Error: " ++ message e), { shell with engine }) := by
  have ends : shell.outcome (operate message operation) =
      Shell.outcome { shell with engine := (shell.engine.outcome operation).2 }
        (ofExcept message (shell.engine.outcome operation).1) := rfl
  rw [ends]
  rcases shell.engine.outcome operation with ⟨_ | _, engine⟩ <;> rfl

theorem operate_eq_ok {message : ε → String} {operation : Operation ε α} :
    shell.outcome (operate message operation) = (.ok answer, shell') ↔
      ∃ e', shell.engine.outcome operation = (.ok answer, e') ∧
        shell' = { shell with engine := e' } := by
  rw [outcome_operate]
  rcases shell.engine.outcome operation with ⟨_ | b, engine⟩ <;> simp [eq_comm]

theorem outcome_files : shell.outcome files = (.ok shell.engine.store.files, shell) := rfl

/-- Warnings leave the engine alone. -/
theorem engine_of_warnings {failures : List LoadFailure} :
    (shell.outcome (failures.forM fun failure => warn failure.message)).2.engine =
      shell.engine := by
  induction failures generalizing shell with
  | nil => rfl
  | cons failure rest ih =>
    have next : shell.outcome ((failure :: rest).forM fun failure => warn failure.message) =
        Shell.outcome { shell with errors := shell.errors ++ ["warning: " ++ failure.message] }
          (rest.forM fun failure => warn failure.message) := rfl
    rw [next, ih]

theorem activate_eq_ok {module : ModuleDirectory}
    (ended : shell.outcome (activate module) = (.ok (), shell')) :
    ∃ report, shell.engine.outcome (Server.activate (module.source shell.engine.store.files)) =
      (.ok report, shell'.engine) := by
  obtain ⟨files, between, read, ended⟩ := bind_eq_ok.1 ended
  cases read
  obtain ⟨report, after, done, ended⟩ := bind_eq_ok.1 ended
  obtain ⟨e, activated, rfl⟩ := operate_eq_ok.1 done
  have same := congrArg (fun ended : Except String Unit × Shell => ended.2.engine) ended
  exact ⟨report, engine_of_warnings.symm.trans same ▸ activated⟩

end Program

end Cli

/-! ## The goals of earlier programs -/

/-- A goal in effect that refers to a condition type which is not registered. -/
structure Store.Dangling (store : Store) (r : Registry) (goalId : String) (g : Goal) : Prop where
  found : store.goal? goalId = some g
  enabled : g.metadata.enabled = true
  unknown : ¬ r.Knows g

namespace Engine

variable {start e e' : Engine} {seen : List ModuleId} {source : ModuleSource}

/-- What is said of an engine after modules were activated on a server that was just opened. -/
structure Started (start : Engine) (seen : List ModuleId) (e : Engine) : Prop where
  owned : ∀ kind id x, e.registry.definitions.declaration? kind id = some x →
    ∃ module ∈ seen, x.owner = some module
  kept : ∀ goalId item, start.store.load "goal" goalId = some item →
    e.store.load "goal" goalId = some item
  added : ∀ goalId g, e.store.goal? goalId = some g →
    start.store.goal? goalId = some g ∨ e.registry.Knows g
  pending : ∀ goalId waiting, e.pending.get? goalId = some waiting → waiting.goal.IsCanonical

/-- The registry knows the goals that it knew once a module is loaded that owned nothing. -/
theorem knows_load (none : ∀ kind id, ¬ e.registry.Owns source.id kind id) {g : Goal}
    (known : e.registry.Knows g) : (e.registry.load source).1.Knows g := by
  intro id member
  obtain ⟨x, found⟩ := Registry.registers_conditionType.2 (known id member)
  rw [← Registry.registers_conditionType]
  exact Registry.registers_load_of_other found fun isOwner => none _ _ ⟨x, found, isOwner⟩

/-- After a module is loaded its definitions are its own, and all others belong to who had them. -/
theorem Started.owned_load (h : start.Started seen e) (kind : DefinitionKind) (id : String)
    (x : Declaration)
    (found : (e.registry.load source).1.definitions.declaration? kind id = some x) :
    ∃ module ∈ source.id :: seen, x.owner = some module := by
  rw [Registry.declaration?_load] at found
  rcases Option.or_eq_some_iff.1 found with put | ⟨-, kept⟩
  · have owner := Definitions.owner_of_mem_incoming (Declaration.of_last? put).1
    exact ⟨source.id, List.mem_cons_self, owner⟩
  · obtain ⟨module, member, owner⟩ := h.owned kind id x (Registry.filter_owner_eq_some.1 kept).1
    exact ⟨module, List.mem_cons_of_mem _ member, owner⟩

/-- A goal that is there after some were tried was there before, or the registry knows it. -/
theorem Installed.known {candidates : List PendingGoal} {ids : List String}
    (done : e.Installed candidates ids e') (canonical : ∀ c ∈ candidates, c.goal.IsCanonical)
    {goalId : String} {g : Goal} (found : e'.store.goal? goalId = some g) :
    e.store.goal? goalId = some g ∨ e'.registry.Knows g := by
  obtain ⟨item, stored, read⟩ := Option.bind_eq_some_iff.1 found
  -- Only what is new was accepted; a goal that was there is as it was, known or not.
  cases before : e.store.load "goal" goalId with
  | some item' =>
    have same := done.kept goalId item' before
    rw [stored] at same
    cases same
    exact .inl (Option.bind_eq_some_iff.2 ⟨item, before, read⟩)
  | none =>
    obtain ⟨c, member, rfl, accepted⟩ := done.added goalId item before stored
    rw [Goal.toEntity_ofEntity, Goal.kept_kept] at read
    cases read
    right
    intro id inGoal
    rw [Goal.typeIds_kept (canonical c member)] at inGoal
    rw [done.registry]
    exact accepted.knows id inGoal

theorem Started.not_owns (h : start.Started seen e) (new : source.id ∉ seen)
    (kind : DefinitionKind) (id : String) : ¬ e.registry.Owns source.id kind id := by
  rintro ⟨x, found, isOwner⟩
  obtain ⟨module, member, owner⟩ := h.owned kind id x found
  rw [isOwner] at owner
  cases owner
  exact new member

/-- Nothing goes when a module is loaded that owned nothing. -/
theorem Started.none_gone (h : start.Started seen e) (new : source.id ∉ seen) {wanted : Bool}
    {report : LoadReport} (loads : e.Loads source wanted report e') :
    report.removed.conditionTypes.isEmpty = true := by
  rw [loads.removed]
  exact IdSet.isEmpty_iff.2 fun id =>
    @Registry.not_mem_removed_load _ _ .conditionType id fun owned =>
      (h.not_owns new _ _ owned).elim

theorem Started.activate (h : start.Started seen e) (new : source.id ∉ seen) :
    e.Ends (Server.activate source) (fun _ e' => start.Started (source.id :: seen) e')
      (fun error _ => error.IsIo) := by
  simp only [Server.activate, ends_bind, ends_pure]
  refine ends_loadModule.mono (fun report e₁ loads => ?_) fun _ _ failed => failed.elim
  -- Nothing goes, so no goal is looked for.
  refine ends_ofGoals (ends_disableUsing_empty (h.none_gone new loads) ?_)
  refine ends_ofGoals (ends_loadGoals.mono ?_ fun _ _ failed => failed)
  rintro _ e₂ ⟨ids, rfl, done⟩
  have registry : e₂.registry = (e.registry.load source).1 := done.registry.trans loads.registry
  have load : (e₁.forget source.id).store.load = e.store.load := loads.load
  have canonical : ∀ c ∈ source.goals ++ (e₁.forget source.id).pending.values,
      c.goal.IsCanonical := by
    intro c member
    rcases List.mem_append.1 member with shipped | waiting
    · exact isCanonical_of_mem_candidates shipped
    · obtain ⟨goalId, waits⟩ := Table.mem_values.1 waiting
      have before := (pending_forget.1 waits).1
      rw [loads.pending] at before
      exact h.pending goalId c before
  constructor
  · intro kind id x found
    rw [registry] at found
    exact h.owned_load kind id x found
  · intro goalId item found
    exact done.kept goalId item (load ▸ h.kept goalId item found)
  · intro goalId g found
    rcases done.known canonical found with before | known
    · rw [Store.goal?, load, ← Store.goal?] at before
      rw [registry]
      exact (h.added goalId g before).imp_right (knows_load (h.not_owns new))
    · exact .inr known
  · intro goalId p found
    rcases done.waiting goalId p found with ⟨before, _⟩ | ⟨member, _⟩
    · exact canonical p (List.mem_append_right _ (Table.mem_values.2 ⟨goalId, before⟩))
    · exact canonical p member

end Engine

namespace Cli.Program

variable {config : ServerConfig} {shell shell' : Shell} {start : Engine}

/-- Modules that were not activated before, one after the other. -/
theorem started_of_forM {modules : List ModuleDirectory} {seen : List ModuleId}
    (h : start.Started seen shell.engine)
    (new : (modules.map ModuleDirectory.id ++ seen).Nodup)
    (ended : shell.outcome (modules.forM activate) = (.ok (), shell')) :
    ∃ seen', start.Started seen' shell'.engine := by
  induction modules generalizing shell seen with
  | nil =>
    cases ended
    exact ⟨seen, h⟩
  | cons module rest ih =>
    obtain ⟨_, between, first, others⟩ := bind_eq_ok.1 ended
    obtain ⟨report, activated⟩ := activate_eq_ok first
    have here : module.id ∉ seen := by
      have apart := (List.nodup_cons.1 new).1
      exact fun member => apart (List.mem_append_right _ member)
    -- The ids that are still to come differ from this one as well as from those before it.
    refine ih ((h.activate here).well activated) ?_ others
    exact (List.perm_middle.nodup_iff).2 new

/-- A server that was just opened has no definitions and nothing waits. -/
theorem started_of_openOn {files : FileTree} (opened : Server.openOn files config = .ok start) :
    start.Started [] start := by
  obtain ⟨store, -, rfl⟩ := Server.openOn_eq_ok.1 opened
  refine ⟨fun kind id x found => ?_, fun _ _ found => found, fun _ _ found => .inl found,
    fun goalId waiting found => ?_⟩
  · simp at found
  · cases found

/-- Opening a server takes its data up, looks for the modules in its directory and goes through
them. -/
theorem outcome_openModules {unlisted : ServerError → String}
    {each : ModuleDirectory → Program Unit} :
    shell.outcome (openModules config unlisted each) =
      match Server.openOn shell.engine.store.files config with
      | .error _ => (.error "Error: failed to open context server", shell)
      | .ok start =>
        match ModuleDirectory.discover start.store.files config.modulesDirectory with
        | .error e => (.error ("Error: " ++ unlisted e), { shell with engine := start })
        | .ok modules => Shell.outcome { shell with engine := start } (modules.forM each) := by
  have opened : shell.outcome (openEngine config) =
      match Server.openOn shell.engine.store.files config with
      | .error _ => (.error "Error: failed to open context server", shell)
      | .ok start => (.ok (), { shell with engine := start }) := by
    rw [openEngine, outcome_bind, outcome_files]
    dsimp only
    cases Server.openOn shell.engine.store.files config <;> rfl
  rw [openModules, outcome_bind, opened]
  cases Server.openOn shell.engine.store.files config with
  | error e => rfl
  | ok start =>
    dsimp only
    rw [outcome_bind, outcome_files]
    dsimp only
    cases ModuleDirectory.discover start.store.files config.modulesDirectory <;> rfl

/-- The modules that a server activates have different ids. -/
theorem openServer_eq_ok (isTree : shell.engine.store.files.IsTree)
    (ended : shell.outcome (openServer config) = (.ok (), shell')) :
    ∃ (start : Engine) (modules : List ModuleDirectory),
      Server.openOn shell.engine.store.files config = .ok start ∧
      (modules.map ModuleDirectory.id).Nodup ∧
      Shell.outcome { shell with engine := start } (modules.forM activate) =
        (.ok (), shell') := by
  rw [openServer, outcome_openModules] at ended
  cases opened : Server.openOn shell.engine.store.files config with
  | error e => rw [opened] at ended; cases ended
  | ok start =>
    cases found : ModuleDirectory.discover start.store.files config.modulesDirectory with
    | error e => simp only [opened, found] at ended; cases ended
    | ok modules =>
      simp only [opened, found] at ended
      obtain ⟨store, isStore, rfl⟩ := Server.openOn_eq_ok.1 opened
      have isTree := isTree.makeDirectories (Store.reads_of_openOn isStore).1
      exact ⟨_, modules, rfl,
        ModuleDirectory.nodup_discover (fun _ => isTree.isName_of_children) found, ended⟩

/-- When a program has opened its server, all goals that were kept are as they were, and the goals
in effect that refer to missing types are exactly those of them that do. -/
theorem openServer_dangling_iff (isTree : shell.engine.store.files.IsTree)
    (ended : shell.outcome (openServer config) = (.ok (), shell')) :
    ∃ start, Server.openOn shell.engine.store.files config = .ok start ∧
      (∀ goalId item, start.store.load "goal" goalId = some item →
        shell'.engine.store.load "goal" goalId = some item) ∧
      ∀ goalId g, shell'.engine.store.Dangling shell'.engine.registry goalId g ↔
        start.store.Dangling shell'.engine.registry goalId g := by
  obtain ⟨start, modules, opened, apart, ended⟩ := openServer_eq_ok isTree ended
  obtain ⟨_, h⟩ := started_of_forM (started_of_openOn opened) (by simpa using apart) ended
  refine ⟨start, opened, h.kept, fun goalId g => ⟨?_, ?_⟩⟩
  · rintro ⟨found, enabled, unknown⟩
    exact ⟨(h.added goalId g found).resolve_right unknown, enabled, unknown⟩
  · rintro ⟨found, enabled, unknown⟩
    obtain ⟨item, stored, read⟩ := Option.bind_eq_some_iff.1 found
    exact ⟨Option.bind_eq_some_iff.2 ⟨item, h.kept goalId item stored, read⟩, enabled, unknown⟩

/-- A server on two directories at the top. -/
def plainConfig : ServerConfig where
  modulesDirectory := "/m"
  dataDirectory := "/d"

/-- Where a program starts that finds some files. -/
def fresh (files : FileTree) : Shell where
  engine := { store := { files } }
  directory := "/"

/-- A module with one condition type. -/
def webFiles : FileTree :=
  (FileTree.writeAll {} "/m/web/conditions/form.json"
    (.text "\x7b\"id\":\"form\"\x7d")).getD {}

/-- Set a goal that begins with a condition of this type. -/
def setStart : Program Unit := do
  openServer plainConfig
  operate GoalError.message (Goals.setGoal "signup"
    { metadata := { id := "signup" }, startEvent := some { typeId := "form" } })

/-- The files that this leaves, without the document of the type. -/
def filesWithoutType : FileTree :=
  ((fresh webFiles).outcome setStart).2.engine.store.files.remove
    "/m/web/conditions/form.json"

theorem isTree_filesWithoutType : filesWithoutType.IsTree := by decide +kernel

/-- The server opens on these files, and the goal is in effect without its type. -/
theorem dangling_filesWithoutType :
    ∃ later, (fresh filesWithoutType).outcome (openServer plainConfig) = (.ok (), later) ∧
      ∃ g, later.engine.store.Dangling later.engine.registry "signup" g := by
  have ran : (fun (ended : Except String Unit × Shell) =>
      (ended.1.toOption, (ended.2.engine.store.goal? "signup").map fun g =>
          (g.metadata.enabled, g.typeIds.toList),
        ended.2.engine.registry.definitions.conditionTypes.contains "form"))
      ((fresh filesWithoutType).outcome (openServer plainConfig)) =
        (some (), some (true, ["form"]), false) := by decide +kernel
  generalize (fresh filesWithoutType).outcome (openServer plainConfig) = ended at ran
  obtain ⟨result, later⟩ := ended
  simp only [Prod.mk.injEq, toOption_eq_some, Option.map_eq_some_iff] at ran
  obtain ⟨rfl, ⟨g, found, enabled, types⟩, missing⟩ := ran
  refine ⟨later, rfl, g, found, enabled, fun known => ?_⟩
  have member : "form" ∈ g.typeIds := IdSet.mem_toList.1 (by simp [types])
  rw [known "form" member] at missing
  cases missing

/-- The goal that an earlier program set stays in effect without its type. -/
theorem openServer_dangling_iff_signup :
    filesWithoutType.IsTree ∧
    ∃ later start g, (fresh filesWithoutType).outcome (openServer plainConfig) = (.ok (), later) ∧
      Server.openOn filesWithoutType plainConfig = .ok start ∧
      start.store.Dangling later.engine.registry "signup" g ∧
      ∀ goalId g, later.engine.store.Dangling later.engine.registry goalId g ↔
        start.store.Dangling later.engine.registry goalId g := by
  refine ⟨isTree_filesWithoutType, ?_⟩
  obtain ⟨later, ended, g, dangling⟩ := dangling_filesWithoutType
  obtain ⟨start, opened, -, same⟩ := openServer_dangling_iff isTree_filesWithoutType ended
  exact ⟨later, start, g, ended, opened, (same "signup" g).1 dangling, same⟩

theorem type_gone_goal_in_effect :
    ∃ first later g, (fresh webFiles).outcome setStart = (.ok (), first) ∧
      (fresh (first.engine.store.files.remove "/m/web/conditions/form.json")).outcome
        (openServer plainConfig) = (.ok (), later) ∧
      later.engine.store.Dangling later.engine.registry "signup" g := by
  have set : ((fresh webFiles).outcome setStart).1.toOption = some () := by decide +kernel
  obtain ⟨later, ended, g, dangling⟩ := dangling_filesWithoutType
  exact ⟨_, later, g, Prod.ext (toOption_eq_some.1 set) rfl, ended, dangling⟩

end Cli.Program

end Clickstream
