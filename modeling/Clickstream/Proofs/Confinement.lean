import Clickstream.Proofs.ItemTexts
import Clickstream.Proofs.Opening
import Clickstream.Proofs.Preserving
import Clickstream.Proofs.SameModules
import Clickstream.Proofs.Starting
import Clickstream.Proofs.StoreCalls

/-! # What is told of one goal

The files of a store tell of a goal and its rules only where they are named for them, if they did so
before: every change writes or deletes one file, and what is written tells of the item that was
saved. So once these items are deleted nothing tells of them any more, until one of them is saved
again. No module does that on its own unless it ships the goal.
-/

namespace Clickstream

open DiskPath Store

/-- The type and id of a goal or of one of its rules. -/
def OfGoal (goalId type id : String) : Prop :=
  type = "goal" ∧ id = goalId ∨ type = "rule" ∧ ∃ step : FunnelStep, id = step.ruleId goalId

/-- Where goals, rules and mappings are kept no modules are. -/
def ServerConfig.Apart (config : ServerConfig) : Prop :=
  ∀ group ∈ ["goal", "rule", mappingsName], ∀ name,
    ¬ stack config.modulesDirectory <:+ name :: group :: stack config.dataDirectory

/-! ## What the files tell after a call -/

namespace StoreCall

variable {call : StoreCall} {files files' : FileTree} {directory type id : String} {place : Place}
  {item : Item} {store : Store}

/-- Only a saved item is told of where a call was made. -/
theorem saved_of_leaves (h : call.leaves = some (.item item)) :
    ∃ saved, call = save saved ∧ saved.type = item.type ∧ saved.id = item.id := by
  cases call with
  | save saved =>
    simp only [leaves, text?, group, id, Option.bind_some, saying?_json] at h
    split at h
    · cases h
    · split at h
      · obtain ⟨value, -, other⟩ := Option.map_eq_some_iff.1 h
        cases other
      · obtain ⟨found, read, same⟩ := Option.map_eq_some_iff.1 h
        cases same
        obtain ⟨sameId, sameType⟩ := Item.eq_of_read? read
        exact ⟨saved, rfl, sameType.symm, sameId.symm⟩
  | remove type id => simp [leaves, text?] at h
  | createMapping name text =>
    simp only [leaves, text?, group, id, Option.bind_some, saying?_json, if_true] at h
    split at h
    · cases h
    · obtain ⟨value, -, other⟩ := Option.map_eq_some_iff.1 h
      cases other

theorem Changes.isTree (changes : call.Changes directory files files') (isTree : files.IsTree) :
    files'.IsTree := by
  rw [Changes] at changes
  split at changes
  · exact isTree.writeAll changes
  · rcases changes with ⟨-, rfl⟩ | removed
    · exact isTree
    · exact isTree.removeFile removed

/-- What is told after a call was saved by it or told before, and not where the call was made. -/
theorem Changes.tells (changes : call.Changes directory files files') (isTree : files.IsTree)
    (told : Tells files' directory place item) :
    (∃ saved, call = save saved ∧ saved.type = item.type ∧ saved.id = item.id ∧ call.At place) ∨
      Tells files directory place item ∧ ¬ call.At place := by
  have said := (changes.says_iff isTree.grouped (changes.isTree isTree).grouped).1 told
  split at said
  · next isAt =>
    obtain ⟨saved, isSave, sameType, sameId⟩ := saved_of_leaves said
    exact .inl ⟨saved, isSave, sameType, sameId, isAt⟩
  · next elsewhere => exact .inr ⟨said, elsewhere⟩

theorem Changes.sameIn {other : String} (changes : call.Changes directory files files')
    (apart : ¬ stack other <:+ stack (call.path directory)) :
    FileTree.SameIn other files files' := by
  rw [Changes] at changes
  split at changes
  · exact .of_writeAll apart changes
  · rcases changes with ⟨-, rfl⟩ | removed
    · exact .refl
    · exact .of_removeFile apart removed

/-- Only saving puts an item into a store. -/
theorem load_on_eq_none (absent : store.load type id = none)
    (other : ∀ item, call = save item → ¬ (item.type = type ∧ item.id = id)) :
    (call.on store).2.load type id = none := by
  cases call with
  | save item =>
    rw [on]
    cases saved : store.save item with
    | ok store' =>
      rw [taken, (save_eq_ok saved).1, Holdings.set, if_neg]
      · exact absent
      · rintro ⟨rfl, rfl⟩
        exact other item rfl ⟨rfl, rfl⟩
    | error e => exact absent
  | remove type' id' =>
    rw [on, load_remove, Holdings.set]
    split
    · rfl
    · exact absent
  | createMapping name text =>
    rw [on]
    cases created : store.createMapping name text with
    | ok store' => rw [taken, (createMapping_eq_ok created).1]; exact absent
    | error e => exact absent

end StoreCall

/-! ## Files that tell of a goal in its place -/

/-- The files hold the modules that they held, and tell of a goal and its rules only in the files
named for them, and not of those that are gone. -/
structure FileTree.Confines (files : FileTree) (config : ServerConfig) (base : FileTree)
    (goalId : String) (gone : String → String → Prop) : Prop where
  isTree : files.IsTree
  modules : ModuleDirectory.SameModules config.modulesDirectory base files
  told : ∀ place item, Tells files config.dataDirectory place item →
    OfGoal goalId item.type item.id →
      ¬ gone item.type item.id ∧ (StoreCall.remove item.type item.id).At place

/-- A server works on such files, and holds nothing that is gone. -/
structure Engine.Confines (config : ServerConfig) (base : FileTree) (goalId : String)
    (gone : String → String → Prop) (e : Engine) : Prop where
  isKept : e.store.directory = some config.dataDirectory
  files : e.store.files.Confines config base goalId gone
  lacks : ∀ type id, gone type id → e.store.load type id = none

/-- Nothing that is gone belongs to a goal. -/
def Spared (gone : String → String → Prop) (goalId : String) : Prop :=
  ∀ type id, OfGoal goalId type id → ¬ gone type id

/-- A goal shares nothing with another one. -/
theorem spared_of_ne {goalId other : String} (apart : other ≠ goalId) :
    Spared (OfGoal goalId) other := by
  rintro type id (⟨rfl, rfl⟩ | ⟨rfl, step, rfl⟩) (⟨isType, same⟩ | ⟨isType, step', same⟩)
  · exact apart same
  · simp at isType
  · simp at isType
  · exact apart (FunnelStep.ruleId_inj.1 same).2

/-- The goals that wait may be installed. -/
def Engine.WaitsFor (e : Engine) (gone : String → String → Prop) : Prop :=
  ∀ key waiting, e.pending.get? key = some waiting → Spared gone waiting.goal.id

namespace Engine

variable {config : ServerConfig} {base : FileTree} {goalId : String}
  {gone : String → String → Prop} {e : Engine}

/-- The calls that operations on goals and modules make. -/
structure Allowed (gone : String → String → Prop) (call : StoreCall) : Prop where
  group : call.group ∈ ["goal", "rule", mappingsName]
  spares : ∀ item, call = .save item → ¬ gone item.type item.id

theorem Confines.on (apart : config.Apart) (h : e.Confines config base goalId gone)
    (call : StoreCall) (allowed : Allowed gone call) :
    Engine.Confines config base goalId gone { e with store := (call.on e.store).2 } := by
  have lacks : ∀ type id, gone type id → (call.on e.store).2.load type id = none := by
    intro type id isGone
    refine StoreCall.load_on_eq_none (h.lacks type id isGone) ?_
    rintro item isSave ⟨rfl, rfl⟩
    exact allowed.spares item isSave isGone
  cases ended : call.on e.store with
  | mk result store =>
    rw [ended] at lacks
    cases result with
    | error error =>
      obtain ⟨sameDirectory, sameFiles⟩ := StoreCall.files_of_on_error ended
      refine ⟨sameDirectory.trans h.isKept, ?_, lacks⟩
      rw [sameFiles]
      exact h.files
    | ok =>
      obtain ⟨isKept, changes⟩ := StoreCall.changes_of_on h.isKept ended
      have isName : IsName call.group := by
        have named : ∀ group ∈ ["goal", "rule", mappingsName], IsName group := by decide
        exact named _ allowed.group
      have outside : ¬ stack config.modulesDirectory <:+
          stack (call.path config.dataDirectory) := by
        rw [StoreCall.path, stack_fileName StoreCall.slashless_group, push_name isName]
        exact apart _ allowed.group _
      have sameModules := ModuleDirectory.sameModules_of_sameIn (changes.sameIn outside)
      refine ⟨isKept, ⟨changes.isTree h.files.isTree, h.files.modules.trans sameModules, ?_⟩,
        lacks⟩
      intro place item told ofGoal
      rcases changes.tells h.files.isTree told with ⟨saved, rfl, sameType, sameId, isAt⟩ | ⟨before, -⟩
      · rw [← sameType, ← sameId]
        exact ⟨allowed.spares saved rfl, (StoreCall.at_congr_pair? rfl rfl).1 isAt⟩
      · exact h.files.told place item before ofGoal

/-! ## Operations keep it so -/

/-- A server that confines a goal, on which nothing waits that is gone, and whose definitions are
those of modules that are still there. -/
structure Keeps (config : ServerConfig) (base : FileTree) (goalId : String)
    (gone : String → String → Prop) (e : Engine) : Prop where
  confines : e.Confines config base goalId gone
  waits : e.WaitsFor gone
  declared : e.registry.DeclaredIn base config.modulesDirectory

theorem isGroup_goal : fileSafe "goal" ∈ ["goal", "rule", mappingsName] := by decide

theorem isGroup_rule : fileSafe "rule" ∈ ["goal", "rule", mappingsName] := by decide

theorem isGroup_mappings : mappingsName ∈ ["goal", "rule", mappingsName] := by decide

namespace Keeps

theorem withRegistry (h : e.Keeps config base goalId gone) {registry : Registry}
    (declared : registry.DeclaredIn base config.modulesDirectory) :
    Engine.Keeps config base goalId gone { e with registry } :=
  ⟨⟨h.confines.isKept, h.confines.files, h.confines.lacks⟩, h.waits, declared⟩

theorem withPending (h : e.Keeps config base goalId gone) {pending : Table PendingGoal}
    (waits : ∀ key waiting, pending.get? key = some waiting → Spared gone waiting.goal.id) :
    Engine.Keeps config base goalId gone { e with pending } :=
  ⟨⟨h.confines.isKept, h.confines.files, h.confines.lacks⟩, waits, h.declared⟩

/-- Others may change the files. -/
theorem withFiles (h : e.Keeps config base goalId gone) {files : FileTree}
    (confines : files.Confines config base goalId gone) :
    Engine.Keeps config base goalId gone { e with store := { e.store with files } } :=
  ⟨⟨h.confines.isKept, confines, h.confines.lacks⟩, h.waits, h.declared⟩

theorem forget (h : e.Keeps config base goalId gone) {module : ModuleId} :
    (e.forget module).Keeps config base goalId gone :=
  h.withPending fun key _ found => h.waits key _ (pending_forget.1 found).1

variable (apart : config.Apart)

include apart

theorem on (h : e.Keeps config base goalId gone) (call : StoreCall) (allowed : Allowed gone call) :
    Engine.Keeps config base goalId gone { e with store := (call.on e.store).2 } :=
  ⟨h.confines.on apart call allowed, h.waits, h.declared⟩

theorem save {item : Item} (isGroup : fileSafe item.type ∈ ["goal", "rule", mappingsName])
    (spares : ¬ gone item.type item.id) :
    Preserves (Keeps config base goalId gone) (Operation.save item) := by
  refine .save fun e store h saved => ?_
  have after := h.on apart (.save item)
    ⟨isGroup, fun other same => by cases same; exact spares⟩
  rw [StoreCall.on, saved] at after
  exact after

theorem remove {type id : String} (isGroup : fileSafe type ∈ ["goal", "rule", mappingsName]) :
    Preserves (Keeps config base goalId gone) (Operation.remove type id) :=
  .remove fun e h => h.on apart (.remove type id) ⟨isGroup, fun _ other => by cases other⟩

theorem setGoal {other : String} {goal : Goal} (spared : Spared gone other) :
    Preserves (Keeps config base goalId gone) (Goals.setGoal other goal) := by
  have sameId (g : Goal) (same : g.kept = (goal.withId other).kept) : g.id = other :=
    congrArg (fun kept : Goal => kept.metadata.id) same
  refine .setGoal (fun _ _ _ _ _ => remove apart isGroup_rule) ?_ ?_
  · intro e h _ g step rule same isRule
    refine save apart isGroup_rule (spared _ _ (.inr ⟨rfl, step, ?_⟩))
    exact (Goal.id_of_rule? isRule).trans (congrArg step.ruleId (sameId g same))
  · intro _ _ _ g same
    exact save apart isGroup_goal (spared _ _ (.inl ⟨rfl, sameId g same⟩))

theorem removeGoal {other : String} :
    Preserves (Keeps config base goalId gone) (Goals.removeGoal other) :=
  .removeGoal (fun _ => remove apart isGroup_rule) (remove apart isGroup_goal)

theorem installGoal {candidate : PendingGoal} (spared : Spared gone candidate.goal.id) :
    Preserves (Keeps config base goalId gone) (Goals.installGoal candidate) := by
  refine .installGoal ?_ ?_ fun e h _ => setGoal apart spared e h
  · intro e item h _
    refine h.withPending fun key waiting found => ?_
    rw [Table.get?_erase] at found
    split at found
    · cases found
    · exact h.waits key waiting found
  · intro e h
    refine h.withPending fun key waiting found => ?_
    rw [Table.get?_insert] at found
    split at found
    · cases found; exact spared
    · exact h.waits key waiting found

theorem loadGoals (h : e.Keeps config base goalId gone) {source : ModuleSource}
    (ships : ∀ c ∈ source.goals, Spared gone c.goal.id) :
    e.Ends (Goals.loadGoals source) (fun _ e' => e'.Keeps config base goalId gone)
      fun _ e' => e'.Keeps config base goalId gone := by
  refine ends_loadGoals_iff.2 (Preserves.iff_ends.1 (.installGoals fun c member => ?_) _ h.forget)
  refine installGoal apart ?_
  rcases List.mem_append.1 member with shipped | waiting
  · exact ships c shipped
  · obtain ⟨key, found⟩ := Table.mem_values.1 waiting
    exact h.forget.waits key c found

theorem createMappings {ε : Type} {documents : List SourceDocument} :
    Preserves (Keeps config base goalId gone)
      (Operation.createMappings documents : Operation ε _) := by
  induction documents with
  | nil => exact .pure
  | cons document rest ih =>
    refine .get fun e h => ?_
    have after := h.on apart (.createMapping document.name document.content)
      ⟨isGroup_mappings, fun _ other => by cases other⟩
    split
    · next store created =>
      rw [StoreCall.on, created] at after
      exact Preserves.bind ih (fun _ => .pure) _ after
    · exact Preserves.bind .log (fun _ => .bind ih fun _ => .pure) _ h

section

variable {module : ModuleDirectory} (isIn : module.IsIn base config.modulesDirectory)

include isIn

theorem loadModule {ε : Type} {wanted : Bool} : Preserves (Keeps config base goalId gone)
    (Operation.loadModule (module.source base) wanted : Operation ε LoadReport) := by
  have mappings : Preserves (Keeps config base goalId gone)
      (Operation.loadMappings (module.source base) wanted : Operation ε _) := by
    refine .bind .log fun _ => ?_
    split
    · exact .bind .log fun _ => .pure
    · split
      · exact createMappings apart
      · exact .pure
  refine .bind mappings fun _ => .get fun e h => ?_
  exact h.withRegistry (h.declared.load isIn)

/-- Activating a module that is there and does not ship what is gone. No goal is disabled, since the
module loses nothing. -/
theorem activate (ships : ∀ c ∈ (module.source base).goals, Spared gone c.goal.id) :
    Preserves (Keeps config base goalId gone) (Server.activate (module.source base)) := by
  refine Preserves.iff_ends.2 fun e h => ?_
  simp only [Server.activate, ends_bind, ends_pure]
  have kept : e.Ends
      (Operation.loadModule (module.source base) true : Server.ServerOperation LoadReport) _ _ :=
    ends_loadModule.and (Preserves.iff_ends.1 (loadModule apart isIn) e h)
  refine kept.mono (fun report e₁ ended => ?_) fun _ _ failed => failed.1.elim
  obtain ⟨loads, after⟩ := ended
  have noneGone : report.removed.conditionTypes.isEmpty = true := by
    rw [loads.removed]
    exact IdSet.isEmpty_iff.2 fun id =>
      @Registry.DeclaredIn.not_mem_removed_load _ _ _ _ .conditionType id h.declared isIn
  rw [Server.ofGoals, ends_adapt]
  refine ends_disableUsing_empty noneGone ?_
  rw [Server.ofGoals, ends_adapt]
  exact after.loadGoals apart ships

end

omit apart in
/-- Deactivating what is not there disables no goal either. -/
theorem deactivate {id : ModuleId}
    (absent : ∀ module : ModuleDirectory, module.IsIn base config.modulesDirectory →
      module.id ≠ id) : Preserves (Keeps config base goalId gone) (Server.deactivate id) := by
  refine Preserves.iff_ends.2 fun e h => ?_
  simp only [Server.deactivate, Operation.unloadModule, Goals.forgetGoals, ends_bind, ends_get,
    ends_set, ends_modify, ends_pure]
  have noneGone : (e.registry.contributions id).conditionTypes.isEmpty = true := by
    refine IdSet.isEmpty_iff.2 fun name member => ?_
    exact @Registry.DeclaredIn.not_owns _ _ _ .conditionType name h.declared id absent
      (Definitions.mem_contributions.1 member)
  rw [Server.ofGoals, ends_adapt]
  refine ends_disableUsing_empty noneGone ?_
  exact (h.withRegistry h.declared.unload).forget

end Keeps

/-! ## Deleting the goal -/

/-- What is deleted is gone. -/
theorem Confines.remove (apart : config.Apart) (h : e.Confines config base goalId gone)
    {type id : String} (isGroup : fileSafe type ∈ ["goal", "rule", mappingsName]) :
    e.Ends (Operation.remove type id)
      (fun _ e' => e'.Confines config base goalId fun type' id' =>
        gone type' id' ∨ type' = type ∧ id' = id)
      fun _ _ => True := by
  have after := h.on apart (.remove type id) ⟨isGroup, fun _ other => by cases other⟩
  rw [Operation.remove, ends_bind, ends_get]
  cases ended : e.store.remove type id with
  | mk result store =>
    have isCall : (StoreCall.remove type id).on e.store = (result.map fun _ => (), store) := by
      rw [StoreCall.on, ended]
    rw [isCall] at after
    cases result with
    | error error => trivial
    | ok existed =>
      have load : store.load = Holdings.set e.store.load type id none := by
        have all := @load_remove e.store type id
        rw [ended] at all
        exact all
      obtain ⟨-, changes⟩ := StoreCall.changes_of_on h.isKept isCall
      refine ⟨after.isKept, ⟨after.files.isTree, after.files.modules, ?_⟩, ?_⟩
      · intro place item told ofGoal
        obtain ⟨kept, isAt⟩ := after.files.told place item told ofGoal
        rcases changes.tells h.files.isTree told with ⟨saved, other, -⟩ | ⟨-, elsewhere⟩
        · cases other
        · refine ⟨?_, isAt⟩
          rintro (isGone | ⟨rfl, rfl⟩)
          · exact kept isGone
          · exact elsewhere isAt
      · rintro type' id' (isGone | ⟨rfl, rfl⟩)
        · exact after.lacks type' id' isGone
        · show store.load type' id' = none
          rw [load, Holdings.set_self]

/-- When a goal is removed it and its rules are gone. -/
theorem Confines.removeGoal (apart : config.Apart)
    (h : e.Confines config base goalId fun _ _ => False) :
    e.Ends (Goals.removeGoal goalId)
      (fun _ e' => e'.Confines config base goalId (OfGoal goalId)) fun _ _ => True := by
  rw [Goals.removeGoal, Goals.retractRules, FunnelStep.all]
  simp only [List.forM_eq_forM, List.forM_cons, List.forM_nil, ends_bind, ends_pure,
    Goals.ofStore, ends_adapt]
  refine (h.remove apart isGroup_rule).mono (fun _ e₁ h => ?_) fun _ _ _ => trivial
  refine (h.remove apart isGroup_rule).mono (fun _ e₂ h => ?_) fun _ _ _ => trivial
  refine (h.remove apart isGroup_goal).mono (fun _ e₃ h => ?_) fun _ _ _ => trivial
  have all : OfGoal goalId = fun type id =>
      ((False ∨ type = "rule" ∧ id = FunnelStep.start.ruleId goalId) ∨
        type = "rule" ∧ id = FunnelStep.target.ruleId goalId) ∨ type = "goal" ∧ id = goalId := by
    funext type id
    have steps : (∃ step : FunnelStep, id = step.ruleId goalId) ↔
        id = FunnelStep.start.ruleId goalId ∨ id = FunnelStep.target.ruleId goalId := by
      constructor
      · rintro ⟨step, rfl⟩
        cases step <;> simp
      · rintro (isId | isId)
        · exact ⟨_, isId⟩
        · exact ⟨_, isId⟩
    rw [OfGoal, steps]
    grind
  rw [all]
  exact h

end Engine

/-! ## Opening a server on the files -/

variable {config : ServerConfig} {base files : FileTree} {goalId : String}
  {gone : String → String → Prop} {start : Engine}

theorem ServerConfig.Apart.outside (apart : config.Apart) :
    ¬ stack config.modulesDirectory <:+ stack config.dataDirectory := by
  intro inside
  refine apart "goal" (by simp) "" (inside.trans ?_)
  exact (List.suffix_cons _ _).trans (List.suffix_cons _ _)

/-- Making directories tells nothing. -/
theorem FileTree.tells_of_makeDirectories {files' : FileTree} {path directory : String}
    {place : Place} {item : Item} (isTree : files.IsTree)
    (made : files.makeDirectories path = some files') (told : Tells files' directory place item) :
    Tells files directory place item := by
  rw [Tells, says_iff (isTree.makeDirectories made).grouped] at told
  rw [Tells, says_iff isTree.grouped]
  obtain ⟨isGroup, isFile, said⟩ := told
  refine ⟨isGroup, isFile, ?_⟩
  rw [at?_makeDirectories made (List.cons_ne_nil _ _) (isPart_two_below isGroup isFile)] at said
  split at said
  · rw [Option.bind_some, saying?.eq_def] at said
    split at said
    · cases said
    · next other => cases other
    · cases said
  · exact said

/-- A server that is opened on files that confine a goal does so too. -/
theorem FileTree.Confines.openOn (apart : config.Apart) (h : files.Confines config base goalId gone)
    (only : ∀ type id, gone type id → OfGoal goalId type id)
    (opened : Server.openOn files config = .ok start) : start.Keeps config base goalId gone := by
  obtain ⟨store, isStore, rfl⟩ := Server.openOn_eq_ok.1 opened
  obtain ⟨made, isKept, -, reads⟩ := reads_of_openOn isStore
  have told : ∀ place item, Tells store.files config.dataDirectory place item → _ :=
    fun place item told => h.told place item (FileTree.tells_of_makeDirectories h.isTree made told)
  have sameModules : ModuleDirectory.SameModules config.modulesDirectory files store.files :=
    ModuleDirectory.sameModules_of_sameIn (.of_makeDirectories apart.outside made)
  refine ⟨⟨isKept, ⟨h.isTree.makeDirectories made, h.modules.trans sameModules, told⟩, ?_⟩, ?_, ?_⟩
  · intro type id isGone
    apply Option.eq_none_iff_forall_ne_some.2
    intro item found
    obtain ⟨rfl, rfl, place, isTold, -⟩ := (reads.load type id item).1 found
    exact (told place item isTold (only _ _ isGone)).1 isGone
  · intro key waiting found
    cases found
  · rintro owner kind name ⟨x, found, -⟩
    simp at found

end Clickstream
