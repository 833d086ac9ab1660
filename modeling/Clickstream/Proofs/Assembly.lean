import Clickstream.Proofs.Installing
import Clickstream.Proofs.Runs

/-! # Modules in any order

Modules that declare nothing twice among them can be activated in any order. What is there after
each step is said by which modules were activated, not by when: definitions and mappings are those
of the modules, and every predefined goal is kept or waits by what the definitions then allow. Goals
whose types come with a later module wait for it, so the order shows only on the way.
-/

namespace Clickstream

/-- The mappings that a module offers. -/
def ModuleSource.mappings (source : ModuleSource) : Fields Json :=
  (source.documents .mappings).filterMap SourceDocument.mapping?

/-- No two modules share their id, the id of a definition of some kind, the name of a mapping or the
id of a goal, and no module ships two goals with one id. -/
structure Separate (sources : List ModuleSource) : Prop where
  ids : (sources.map ModuleSource.id).Nodup
  declared : sources.Pairwise fun a b => ∀ kind, ∀ x ∈ a.declared kind, ∀ y ∈ b.declared kind,
    x.id ≠ y.id
  mappings : sources.Pairwise fun a b => ∀ m ∈ a.mappings, ∀ n ∈ b.mappings, m.1 ≠ n.1
  goals : ((sources.flatMap ModuleSource.goals).map (·.goal.id)).Nodup

/-- The order of the modules does not matter. -/
theorem Separate.perm {sources sources' : List ModuleSource} (h : Separate sources)
    (perm : sources.Perm sources') : Separate sources' where
  ids := (perm.map _).nodup_iff.1 h.ids
  declared := (perm.pairwise_iff fun apart kind x inB y inA same =>
    apart kind y inA x inB same.symm).1 h.declared
  mappings := (perm.pairwise_iff fun apart m inB n inA same =>
    apart n inA m inB same.symm).1 h.mappings
  goals := ((perm.flatMap_right _).map _).nodup_iff.1 h.goals

theorem Separate.of_append {sources sources' : List ModuleSource}
    (h : Separate (sources ++ sources')) : Separate sources' where
  ids := (List.nodup_append.1 (List.map_append ▸ h.ids)).2.1
  declared := (List.pairwise_append.1 h.declared).2.1
  mappings := (List.pairwise_append.1 h.mappings).2.1
  goals := by
    have both := h.goals
    rw [List.flatMap_append, List.map_append] at both
    exact (List.nodup_append.1 both).2.1

namespace Engine

variable {e e' : Engine} {settings : GoalSettings} {source : ModuleSource}
  {sources sources' : List ModuleSource}

/-- The definitions and mappings are those of some modules. -/
structure Described (e : Engine) (sources : List ModuleSource) : Prop where
  indexed : e.registry.Indexed
  declared : ∀ kind id x, e.registry.definitions.declaration? kind id = some x ↔
    ∃ source ∈ sources, Declaration.last? (source.declared kind) id = some x
  mapped : ∀ name value, e.store.mappings.get? name = some value ↔
    ∃ source ∈ sources, Fields.get? source.mappings.reverse name = some value

/-- What comes first counts; if others have nothing there, it does not matter which that is. -/
private theorem or_eq_some_iff_exists {β : Type} {here : Option β} {x : β}
    {found : ModuleSource → Option β} (h : ∀ x, here = some x ↔ ∃ s ∈ sources, found s = some x)
    (apart : ∀ s ∈ sources, ∀ x, found s = some x → found source = none) :
    (found source).or here = some x ↔ ∃ s ∈ source :: sources, found s = some x := by
  rw [Option.or_eq_some_iff, h]
  simp only [List.mem_cons, exists_eq_or_imp]
  refine or_congr_right ⟨And.right, fun other => ⟨?_, other⟩⟩
  obtain ⟨s, member, isFound⟩ := other
  exact apart s member x isFound

namespace Described

/-- A module that was not there owns nothing. -/
theorem not_owns (h : e.Described sources) (new : source.id ∉ sources.map ModuleSource.id)
    (kind : DefinitionKind) (id : String) : ¬ e.registry.Owns source.id kind id := by
  rintro ⟨x, found, isOwner⟩
  obtain ⟨s, member, declared⟩ := (h.declared kind id x).1 found
  have owner := ModuleSource.owner_of_mem_declared (Declaration.of_last? declared).1
  rw [isOwner] at owner
  exact new (List.mem_map.2 ⟨s, member, (Option.some.inj owner).symm⟩)

/-- Loading one more module adds what it declares. -/
theorem declared_load (h : e.Described sources) (separate : Separate (source :: sources))
    (kind : DefinitionKind) (id : String) (x : Declaration) :
    (e.registry.load source).1.definitions.declaration? kind id = some x ↔
      ∃ s ∈ source :: sources, Declaration.last? (s.declared kind) id = some x := by
  have new := (List.nodup_cons.1 separate.ids).1
  rw [Registry.declaration?_load_of_not_owns (h.not_owns new)]
  refine or_eq_some_iff_exists (h.declared kind id) fun s member x found => ?_
  rw [Declaration.last?_eq_none]
  intro listed
  obtain ⟨y, declares, sameId⟩ := List.mem_map.1 listed
  obtain ⟨declared, isId⟩ := Declaration.of_last? found
  exact List.rel_of_pairwise_cons separate.declared member kind y declares x declared
    (sameId.trans isId.symm)

theorem mapped_load (h : e.Described sources) (separate : Separate (source :: sources))
    (name : String) (value : Json) :
    (e.store.mappings.insertAll source.mappings).get? name = some value ↔
      ∃ s ∈ source :: sources, Fields.get? s.mappings.reverse name = some value := by
  rw [Table.get?_insertAll]
  refine or_eq_some_iff_exists (h.mapped name) fun s member value found => ?_
  rw [Fields.get?_eq_none]
  intro pair inSource sameName
  have inOther := List.mem_reverse.1 (Fields.mem_of_get? found)
  exact List.rel_of_pairwise_cons separate.mappings member pair (List.mem_reverse.1 inSource) _
    inOther sameName

/-- What is registered stays so when one more module is loaded. -/
theorem registers_load (h : e.Described sources) (separate : Separate (source :: sources))
    {kind : DefinitionKind} {id : String} (before : e.registry.Registers kind id) :
    (e.registry.load source).1.Registers kind id := by
  obtain ⟨x, found⟩ := before
  obtain ⟨s, member, declared⟩ := (h.declared kind id x).1 found
  exact ⟨x, (h.declared_load separate kind id x).2 ⟨s, List.mem_cons_of_mem _ member, declared⟩⟩

/-- No condition type goes when one more module is loaded. -/
theorem removed_load (h : e.Described sources) (separate : Separate (source :: sources)) :
    (e.registry.load source).2.1.removed.conditionTypes.isEmpty = true := by
  have new := (List.nodup_cons.1 separate.ids).1
  refine IdSet.isEmpty_iff.2 fun id => ?_
  exact @Registry.not_mem_removed_load _ _ .conditionType id fun owned =>
    (h.not_owns new _ _ owned).elim

theorem grows (h : e.Described sources) (separate : Separate (source :: sources)) {wanted : Bool}
    {report : LoadReport} (loads : e.Loads source wanted report e') : e.Grows e' where
  accepts g accepted := by
    refine ⟨fun id member => ?_, fun compiled => ?_⟩
    · rw [loads.registry, ← Registry.registers_conditionType]
      have known := Registry.registers_conditionType.2 (accepted.knows id member)
      exact h.registers_load separate known
    · rw [loads.registry, loads.settings, ← Registry.registers_actionType]
      have known := Registry.registers_actionType.2 (accepted.action compiled)
      exact h.registers_load separate known
  load := loads.load
  settings := loads.settings
  pending := loads.pending

end Described

/-! ## Activating modules -/

/-- After some modules were activated: their definitions, mappings and goals, and nothing else. -/
structure Assembled (e : Engine) (settings : GoalSettings) (sources : List ModuleSource) :
    Prop where
  intact : e.Intact settings
  described : e.Described sources
  stocked : e.Stocked (sources.flatMap ModuleSource.goals)

/-- One more module adds what it offers. -/
theorem Assembled.activate (h : e.Assembled settings sources)
    (separate : Separate (source :: sources)) :
    e.Ends (Server.activate source)
      (fun report e' => (∀ failure ∈ report.load.failures, failure.isIo = false) →
        e'.Assembled settings (source :: sources))
      (fun error _ => error.IsIo) := by
  have new : ∀ c ∈ sources.flatMap ModuleSource.goals, c.module ≠ source.id := by
    intro c member same
    obtain ⟨s, inSources, ships⟩ := List.mem_flatMap.1 member
    rw [ModuleSource.module_of_mem_goals ships] at same
    exact (List.nodup_cons.1 separate.ids).1 (List.mem_map.2 ⟨s, inSources, same⟩)
  have added : e.Ends (Server.activate source)
      (fun report e' => (∀ failure ∈ report.load.failures, failure.isIo = false) →
        e'.Described (source :: sources) ∧
          e'.Stocked ((source :: sources).flatMap ModuleSource.goals))
      (fun error _ => error.IsIo) := by
    simp only [Server.activate, ends_bind, ends_pure]
    refine ends_loadModule.mono (fun report e₁ loads => ?_) fun _ _ failed => failed.elim
    have noneGone := h.described.removed_load separate
    rw [← loads.removed] at noneGone
    refine ends_ofGoals (ends_disableUsing_empty noneGone ?_)
    have stocked := h.stocked.loadGoals (h.described.grows separate loads) new separate.goals
    refine ends_ofGoals (stocked.mono ?_ fun _ _ failed => failed)
    rintro _ e₂ ⟨goals, registry, -, mappings⟩ works
    refine ⟨⟨?_, fun kind id x => ?_, fun name value => ?_⟩, goals⟩
    · rw [registry, loads.registry]
      exact h.described.indexed.load source
    · rw [registry, loads.registry]
      exact h.described.declared_load separate kind id x
    · rw [mappings, loads.mappings rfl works]
      exact h.described.mapped_load separate name value
  refine (added.and h.intact.activate).mono ?_ fun _ _ failed => failed.1
  rintro report e' ⟨adds, intact⟩ works
  obtain ⟨described, stocked⟩ := adds works
  exact ⟨intact, described, stocked⟩

/-- The engine after activating modules one after the other, unless the files of the store failed
for an item or a mapping. -/
def activated? (e : Engine) : List ModuleSource → Option Engine
  | [] => some e
  | source :: rest =>
    match e.outcome (Server.activate source) with
    | (.error (.goal (.store (.io _))), _) => none
    | (.error _, next) => next.activated? rest
    | (.ok report, next) =>
      if report.load.failures.any LoadFailure.isIo then none else next.activated? rest

theorem Assembled.activated {start : Engine} {done : List ModuleSource}
    (h : start.Assembled settings done) (separate : Separate (sources.reverse ++ done))
    (run : start.activated? sources = some e) : e.Assembled settings (sources.reverse ++ done) := by
  induction sources generalizing start done with
  | nil => cases run; exact h
  | cons source rest ih =>
    rw [List.reverse_cons, List.append_assoc, List.singleton_append] at separate ⊢
    have ends := h.activate separate.of_append
    rw [activated?] at run
    split at run
    · cases run
    · next error next works ended =>
      obtain ⟨path, rfl⟩ := ends.badly ended
      exact (works path rfl).elim
    · next report next ended =>
      split at run
      · cases run
      · next works =>
        refine ih (ends.well ended fun failure member => ?_) separate run
        simpa using fun failed => works (List.any_eq_true.2 ⟨failure, member, failed⟩)

/-! ## What is there in the end -/

/-- The same definitions and index, goals and rules, mappings and waiting goals. -/
structure SameContents (e e' : Engine) : Prop where
  definitions : e.registry.definitions = e'.registry.definitions
  index : e.registry.index = e'.registry.index
  goals : ∀ goalId, e.store.load "goal" goalId = e'.store.load "goal" goalId
  rules : ∀ ruleId, e.store.load "rule" ruleId = e'.store.load "rule" ruleId
  mappings : e.store.mappings = e'.store.mappings
  pending : e.pending = e'.pending

/-- Which modules were activated determines what is there. -/
theorem Assembled.sameContents (h : e.Assembled settings sources)
    (h' : e'.Assembled settings sources') (same : ∀ source, source ∈ sources ↔ source ∈ sources') :
    e.SameContents e' := by
  have definitions : e.registry.definitions = e'.registry.definitions := by
    refine Definitions.ext fun kind id => Option.ext fun x => ?_
    rw [h.described.declared, h'.described.declared]
    simp only [same]
  have configured : e.settings = e'.settings := h.intact.configured.trans h'.intact.configured.symm
  have accepts (g : Goal) : e.Accepts g ↔ e'.Accepts g := accepts_congr definitions configured
  -- Under every id there is the one goal that is shipped with it, if any, in the same place.
  have holds (goalId : String) : ∃ goal waiting, e.Holds goalId goal waiting ∧
      e'.Holds goalId goal waiting := by
    have members (c : PendingGoal) : c ∈ sources.flatMap ModuleSource.goals ↔
        c ∈ sources'.flatMap ModuleSource.goals := by
      simp only [List.mem_flatMap, same]
    by_cases listed : goalId ∈ (sources.flatMap ModuleSource.goals).map (·.goal.id)
    · obtain ⟨c, member, rfl⟩ := List.mem_map.1 listed
      have placed := h.stocked.placed c member
      have placed' := h'.stocked.placed c ((members c).1 member)
      by_cases accepted : e.Accepts c.goal
      · exact ⟨_, _, placed.accepted accepted, placed'.accepted ((accepts _).1 accepted)⟩
      · have rejected : ¬ e'.Accepts c.goal := fun accepted' => accepted ((accepts _).2 accepted')
        exact ⟨_, _, placed.rejected accepted, placed'.rejected rejected⟩
    · refine ⟨_, _, h.stocked.others goalId listed, h'.stocked.others goalId fun listed' => ?_⟩
      obtain ⟨c, member, sameId⟩ := List.mem_map.1 listed'
      exact listed (List.mem_map.2 ⟨c, (members c).2 member, sameId⟩)
  refine ⟨definitions, ?_, fun goalId => ?_, fun ruleId => ?_, ?_, ?_⟩
  · rw [h.described.indexed.index, h'.described.indexed.index, definitions]
  · obtain ⟨goal, waiting, here, there⟩ := holds goalId
    rw [here.load, there.load]
  · by_cases ofGoal : ∃ (step : FunnelStep) (goalId : String), ruleId = step.ruleId goalId
    · obtain ⟨step, goalId, rfl⟩ := ofGoal
      obtain ⟨goal, waiting, here, there⟩ := holds goalId
      rw [here.stored.rules, there.stored.rules, configured]
    · have none {engine : Engine} (intact : engine.Intact settings) :
          engine.store.load "rule" ruleId = none := by
        cases found : engine.store.load "rule" ruleId with
        | none => rfl
        | some item => exact (ofGoal (intact.holdings.rules ruleId item found)).elim
      rw [none h.intact, none h'.intact]
  · refine Table.ext fun name => Option.ext fun value => ?_
    rw [h.described.mapped, h'.described.mapped]
    simp only [same]
  · refine Table.ext fun goalId => ?_
    obtain ⟨goal, waiting, here, there⟩ := holds goalId
    rw [here.pending, there.pending]

end Engine

/-- A server opened on an empty directory has nothing of any module. -/
theorem Server.assembled_of_openOn {files : FileTree} {config : ServerConfig} {start : Engine}
    (empty : files.children config.dataDirectory = [])
    (opened : Server.openOn files config = .ok start) : start.Assembled start.settings [] := by
  obtain ⟨items, pending, _⟩ := Server.items_of_openOn empty opened
  obtain ⟨registry, mappings⟩ := Server.registry_of_openOn empty opened
  have nothing (type id : String) : start.store.load type id = none := by
    rw [Store.load, items]
    rfl
  have none (type : String) : start.store.all type = [] := by
    rw [Store.all, items]
    rfl
  refine ⟨Engine.intact_of_empty (none "goal") (none "rule") ?_, ⟨?_, ?_, ?_⟩, ⟨?_, ?_⟩⟩
  · intro goalId waiting found
    rw [pending] at found
    cases found
  · rw [registry]
    exact Registry.Indexed.empty
  · intro kind id x
    simp [registry]
  · intro name value
    simp [mappings]
  · intro c member
    cases member
  · intro goalId _
    exact ⟨⟨nothing _ _, fun step => nothing _ _⟩, by rw [pending]; rfl⟩

/-- Whatever the order in which separate modules are activated on a server that was opened on an
empty directory, the same is there in the end. -/
theorem Server.sameContents_of_perm {files : FileTree} {config : ServerConfig}
    {start e e' : Engine} {sources sources' : List ModuleSource}
    (empty : files.children config.dataDirectory = [])
    (opened : Server.openOn files config = .ok start) (separate : Separate sources)
    (perm : sources.Perm sources') (run : start.activated? sources = some e)
    (run' : start.activated? sources' = some e') : e.SameContents e' := by
  have nothing := Server.assembled_of_openOn empty opened
  have reached {order : List ModuleSource} {final : Engine} (isOrder : sources.Perm order)
      (ran : start.activated? order = some final) :
      final.Assembled start.settings (order.reverse ++ []) := by
    refine nothing.activated (separate.perm ?_) ran
    rw [List.append_nil]
    exact isOrder.trans (List.reverse_perm order).symm
  refine (reached (.refl _) run).sameContents (reached perm run') fun source => ?_
  simp only [List.append_nil, List.mem_reverse, perm.mem_iff]

/-- A module with a goal whose condition type another one provides, and a mapping. -/
def signupModule : ModuleSource where
  id := "signup"
  list
    | .mappings => { documents := .ok [⟨"form", "form", "\x7b\x7d"⟩] }
    | .goals =>
      { documents := .ok [⟨"signup", "signup", "\x7b\"metadata\":\x7b\"id\":\"signup\"\x7d,"
          ++ "\"startEvent\":\x7b\"type\":\"formSubmit\"\x7d,"
          ++ "\"targetEvent\":\x7b\"type\":\"formSubmit\"\x7d\x7d"⟩] }
    | _ => { documents := .ok [] }

theorem separate_forms_signup : Separate [formsModule, signupModule] where
  ids := by decide
  declared := by
    have nothing (kind : DefinitionKind) : signupModule.declared kind = [] := by cases kind <;> rfl
    refine List.pairwise_pair.2 fun kind x _ y member => ?_
    rw [nothing] at member
    cases member
  mappings := by
    refine List.pairwise_pair.2 fun m inForms => ?_
    cases inForms
  goals := by decide +kernel

/-- The goal may come before or after the types that it needs. -/
theorem Server.sameContents_forms_signup :
    ∃ start e e', Server.openOn {} (.forProject "/srv") = .ok start ∧
      start.activated? [formsModule, signupModule] = some e ∧
      start.activated? [signupModule, formsModule] = some e' ∧
      (e.store.all "rule").map Item.id = ["signup.startEvent", "signup.targetEvent"] ∧
      e.SameContents e' := by
  have empty : FileTree.children {} (ServerConfig.forProject "/srv").dataDirectory = [] := by
    decide +kernel
  have ran : ((Server.openOn {} (.forProject "/srv")).toOption.bind
      (·.activated? [formsModule, signupModule])).map
        (fun e => (e.store.all "rule").map Item.id) =
      some ["signup.startEvent", "signup.targetEvent"] := by decide +kernel
  have ran' : ((Server.openOn {} (.forProject "/srv")).toOption.bind
      (·.activated? [signupModule, formsModule])).isSome = true := by decide +kernel
  obtain ⟨e, ran, rules⟩ := Option.map_eq_some_iff.1 ran
  obtain ⟨start, opened, ran⟩ := Option.bind_eq_some_iff.1 ran
  rw [opened] at ran'
  obtain ⟨e', ran'⟩ := Option.isSome_iff_exists.1 ran'
  cases isStart : Server.openOn {} (.forProject "/srv") with
  | error error => rw [isStart] at opened; cases opened
  | ok start' =>
    rw [isStart] at opened
    cases opened
    exact ⟨start, e, e', rfl, ran, ran', rules,
      sameContents_of_perm empty isStart separate_forms_signup (.swap _ _ _) ran ran'⟩

end Clickstream
