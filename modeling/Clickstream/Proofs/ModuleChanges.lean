import Clickstream.Proofs.Consistency
import Clickstream.Proofs.Contributions
import Clickstream.Server

/-! # Modules come and go

Loading a module reports every condition type that is gone afterwards, and so does dropping one.
That report is all that is needed to disable the goals that no longer resolve, so bringing a module
in or out leads from one intact engine to another.
-/

namespace Clickstream

namespace Registry

variable {r : Registry} {id : String}

theorem registers_conditionType :
    r.Registers .conditionType id ↔ r.definitions.conditionTypes.contains id = true :=
  Table.exists_map_get?

theorem registers_actionType :
    r.Registers .actionType id ↔ r.definitions.actionTypes.contains id = true :=
  Table.exists_map_get?

/-- A condition type is there after a change or reported as gone. -/
theorem contains_of_reports {r' : Registry} {removed : Contributions} (h : Reports r r' removed)
    (there : r.definitions.conditionTypes.contains id = true) :
    r'.definitions.conditionTypes.contains id = true ∨ id ∈ removed.conditionTypes := by
  by_cases after : r'.Registers .conditionType id
  · exact .inl (registers_conditionType.1 after)
  · exact .inr ((h .conditionType id).2 ⟨registers_conditionType.2 there, after⟩)

/-- A goal is known after some types went unless it used one of them. -/
theorem knows_or_uses {r' : Registry} {removed : IdSet}
    (gone : ∀ id, r.definitions.conditionTypes.contains id = true →
      r'.definitions.conditionTypes.contains id = true ∨ id ∈ removed) {g : Goal}
    (h : r.Knows g) : r'.Knows g ∨ g.referencesAny removed = true := by
  by_cases uses : g.referencesAny removed = true
  · exact .inr uses
  · left
    intro id member
    refine (gone id (h id member)).resolve_right fun inside => uses ?_
    exact Goal.referencesAny_iff.2 ⟨id, member, inside⟩

end Registry

/-- The files of the store failed. -/
def ServerError.IsIo (e : ServerError) : Prop := ∃ path, e = .goal (.store (.io path))

namespace Engine

variable {e : Engine} {settings : GoalSettings}

/-- After definitions went, the goals that used them are all that is left to be put right. -/
theorem Intact.changeRegistry (h : e.Intact settings) {registry : Registry} {removed : IdSet}
    (gone : ∀ id, e.registry.definitions.conditionTypes.contains id = true →
      registry.definitions.conditionTypes.contains id = true ∨ id ∈ removed) :
    Engine.Consistent { e with registry } settings fun g => g.referencesAny removed = true := by
  refine ⟨h.configured, h.holdings.mono fun g _ _ _ known => ?_, h.pending⟩
  exact Registry.knows_or_uses gone (known.resolve_right id)

theorem ends_loadMappings {ε : Type} {source : ModuleSource} {wanted : Bool} :
    e.Ends (Operation.loadMappings source wanted : Operation ε _)
      (fun result e' => e.Remapped e' ∧
        (wanted = true → e.Takes e' (source.documents .mappings) result.2))
      (fun _ _ => False) := by
  rw [ModuleSource.documents]
  simp only [Operation.loadMappings, ends_bind, ends_log]
  cases listed : (source.list .mappings).documents with
  | error reason =>
    simp only [ends_bind, ends_log, ends_pure]
    exact ⟨Remapped.refl, fun _ _ => rfl⟩
  | ok documents =>
    cases wanted with
    | true =>
      have created : e.Ends (Operation.createMappings documents : Operation ε _) _ _ :=
        ends_createMappings
      refine created.mono ?_ fun _ _ failed => failed
      rintro _ _ ⟨same, takes⟩
      exact ⟨same, fun _ => takes⟩
    | false => exact ⟨Remapped.refl, fun isWanted => absurd isWanted Bool.false_ne_true⟩

/-- Loading a module loads it into the registry, takes its mappings and leaves all else. -/
structure Loads (e : Engine) (source : ModuleSource) (wanted : Bool) (report : LoadReport)
    (e' : Engine) : Prop where
  registry : e'.registry = (e.registry.load source).1
  removed : report.removed = (e.registry.load source).2.1.removed
  load : e'.store.load = e.store.load
  mappings : wanted = true → e.Takes e' (source.documents .mappings) report.failures
  settings : e'.settings = e.settings
  pending : e'.pending = e.pending

theorem ends_loadModule {ε : Type} {source : ModuleSource} {wanted : Bool} :
    e.Ends (Operation.loadModule source wanted : Operation ε LoadReport)
      (fun report e' => e.Loads source wanted report e') (fun _ _ => False) := by
  simp only [Operation.loadModule, ends_bind, ends_get, ends_log, ends_set, ends_pure]
  refine ends_loadMappings.mono ?_ fun _ _ failed => failed
  rintro result e' ⟨same, takes⟩
  exact {
    registry := by rw [same.registry]
    removed := by rw [same.registry]
    load := same.load
    mappings := fun isWanted works => takes isWanted fun failure member =>
      works failure (List.mem_append_left _ member)
    settings := same.settings
    pending := same.pending }

theorem Intact.loadModule {ε : Type} (h : e.Intact settings) {source : ModuleSource}
    {mappings : Bool} :
    e.Ends (Operation.loadModule source mappings : Operation ε LoadReport)
      (fun report e' => e'.Consistent settings fun g =>
        g.referencesAny report.removed.conditionTypes = true)
      (fun _ _ => False) := by
  refine ends_loadModule.mono (fun report e' loads => ?_) fun _ _ failed => failed
  have gone := h.changeRegistry fun id => Registry.contains_of_reports
    (@Registry.reports_load e.registry source)
  refine ⟨loads.settings.trans h.configured, ?_, loads.pending ▸ h.pending⟩
  rw [loads.load, loads.registry, loads.removed]
  exact gone.holdings

/-- An operation on goals, as one of the server. -/
theorem ends_ofGoals {α : Type} {operation : Operation GoalError α}
    {good : α → Engine → Prop}
    (h : e.Ends operation good fun error _ => error.IsIo) :
    e.Ends (Server.ofGoals operation) good fun error _ => error.IsIo := by
  rw [Server.ofGoals, ends_adapt]
  refine h.mono (fun _ _ well => well) ?_
  rintro _ _ ⟨path, rfl⟩
  exact ⟨path, rfl⟩

theorem Intact.activate (h : e.Intact settings) {source : ModuleSource} :
    e.Ends (Server.activate source) (fun _ e' => e'.Intact settings)
      (fun error _ => error.IsIo) := by
  simp only [Server.activate, ends_bind, ends_pure]
  refine h.loadModule.mono (fun report e₁ loaded => ?_) fun _ _ failed => failed.elim
  refine (ends_ofGoals loaded.disableUsing).mono (fun _ e₂ intact => ?_) fun _ _ failed => failed
  exact ends_ofGoals intact.loadGoals

theorem Intact.deactivate (h : e.Intact settings) {module : ModuleId} :
    e.Ends (Server.deactivate module) (fun _ e' => e'.Intact settings)
      (fun error _ => error.IsIo) := by
  simp only [Server.deactivate, Operation.unloadModule, ends_bind, ends_get, ends_set, ends_pure]
  have gone := h.changeRegistry fun id => Registry.contains_of_reports
    (@Registry.reports_unload e.registry module)
  refine gone.forgetGoals.mono (fun _ e' next => ?_) fun _ _ failed => failed.elim
  exact ends_ofGoals next.disableUsing

end Engine

end Clickstream
