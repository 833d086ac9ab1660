import Clickstream.Goals
import Clickstream.Proofs.EntityItems

/-! # Goals and rules as items

A goal or rule that is kept as an item reads back as it was, but for the types of its conditions,
which are not kept, and for the order of the fields among its parameters. An item therefore
determines all that matters about its goal.
-/

namespace Clickstream

namespace Condition

/-- The condition as an item keeps it. -/
def kept (c : Condition) : Condition where
  typeId := c.typeId
  parameters := Json.ordered c.parameters

/-- The parameters are in canonical form, as all that were read are. -/
def IsCanonical (c : Condition) : Prop := Json.ordered c.parameters = c.parameters

theorem kept_kept {c : Condition} : c.kept.kept = c.kept := by
  simp only [kept, Json.ordered_ordered]

theorem isCanonical_kept {c : Condition} : c.kept.IsCanonical := Json.ordered_ordered

theorem typeIds_kept {c : Condition} (h : c.IsCanonical) : c.kept.typeIds = c.typeIds := by
  rw [typeIds, typeIds, kept, h]

theorem ofDocument?_toJson {layout : Layout} {c : Condition} :
    ofDocument? (layout.document c.toJson) = some c.kept := by
  have written : c.toJson = .object (Record.written fieldNames
      [some (.string c.typeId), some (.object c.parameters)]) := rfl
  rw [ofDocument?, written, Layout.record?_written (by decide) rfl]
  simp [kept]

/-- An item holds a condition in canonical form whether or not the condition is. -/
theorem canonical_toJson_kept {c : Condition} : c.kept.toJson.canonical = c.toJson.canonical := by
  simp only [toJson, Json.canonical_typed, kept, Json.ordered_ordered]

theorem optional_toJson {layout : Layout} {event : Option Condition} :
    Document.optional ofDocument? ((event.map toJson).map layout.document) =
      some (event.map kept) := by
  rw [Option.map_map]
  exact Document.optional_map rfl fun _ => ofDocument?_toJson

/-- A condition that is stored as a value reads back as an item keeps it. -/
theorem ofJson?_toValue {c : Condition} : ofJson? c.toValue = some c.kept := by
  rw [toValue, toJson, Json.canonical_typed]
  rfl

/-- A condition that was read is as an item keeps it. -/
theorem kept_of_ofDocument? {d : Document} {c : Condition} (h : ofDocument? d = some c) :
    c.kept = c := by
  simp only [ofDocument?, Option.pure_def, Option.bind_eq_bind] at h
  obtain ⟨record, _, h⟩ := Option.bind_eq_some_iff.1 h
  split at h
  · next typeId field _ =>
    obtain ⟨id, _, h⟩ := Option.bind_eq_some_iff.1 h
    obtain ⟨parameters, read, h⟩ := Option.bind_eq_some_iff.1 h
    cases h
    cases field with
    | none => cases read; rfl
    | some d => simp only [kept, Document.ordered_of_fields? read]
  · cases h

end Condition

namespace Metadata

theorem ofDocument?_toJson {layout : Layout} {m : Metadata} :
    ofDocument? (layout.document m.toJson) = some m := by
  have written : m.toJson = .object (Record.written
      [["id"], ["name"], ["description"], ["enabled"], ["hidden"], ["moduleId"]]
      [some (.string m.id), some (.string m.name), some (.string m.description),
        some (.bool m.enabled), some (.bool m.hidden), m.moduleId.map .string]) := by
    simp [toJson, Record.written, Json.optionalField]
  rw [ofDocument?, written, Layout.record?_written (by decide) rfl]
  simp

end Metadata

namespace Goal

variable {g : Goal}

/-- The goal as an item keeps it. -/
def kept (g : Goal) : Goal where
  metadata := g.metadata
  startEvent := g.startEvent.map Condition.kept
  targetEvent := g.targetEvent.map Condition.kept

/-- The conditions are in canonical form. -/
structure IsCanonical (g : Goal) : Prop where
  startEvent : ∀ c, g.startEvent = some c → c.IsCanonical
  targetEvent : ∀ c, g.targetEvent = some c → c.IsCanonical

/-- The parts of a goal document. -/
private def parts (g : Goal) : List (Option Json) :=
  [some g.metadata.toJson, g.startEvent.map Condition.toJson, g.targetEvent.map Condition.toJson]

private theorem fields_eq_written :
    g.fields = Record.written [["metadata"], ["startEvent"], ["targetEvent"]] g.parts := by
  simp [fields, parts, Record.written, Json.optionalField]

private theorem ofDocument?_of_parts {layout : Layout} {d : Document}
    (h : d.record? [["metadata"], ["startEvent"], ["targetEvent"]] =
      some (g.parts.map (Option.map layout.document))) : ofDocument? d = some g.kept := by
  rw [ofDocument?, h]
  simp [parts, Metadata.ofDocument?_toJson, Condition.optional_toJson, kept, -Option.map_map]

theorem ofDocument?_toJson {layout : Layout} :
    ofDocument? (layout.document g.toJson) = some g.kept := by
  refine @ofDocument?_of_parts g layout _ ?_
  rw [toJson, fields_eq_written, Layout.record?_written (by decide) rfl]

theorem toEntity_ofEntity : (Item.ofEntity g).toEntity Goal = .ok g.kept := by
  have written : Entity.fields g =
      Record.written [["metadata"], ["startEvent"], ["targetEvent"]] g.parts := fields_eq_written
  have record := Item.record?_ofEntity_inside (by decide) (by decide) rfl written
  rw [Item.toEntity, if_neg (fun other => other rfl)]
  simp only [Entity.ofDocument?, ofDocument?_of_parts record]

theorem ofEntity_kept : Item.ofEntity g.kept = Item.ofEntity g := by
  have same : Json.canonicalFields g.kept.fields = Json.canonicalFields g.fields := by
    obtain ⟨metadata, startEvent, targetEvent⟩ := g
    cases startEvent <;> cases targetEvent <;>
      simp [fields, kept, Json.optionalField, Json.canonicalFields,
        Condition.canonical_toJson_kept]
  simp only [Item.ofEntity, Entity.fields, same]
  rfl

theorem kept_kept : g.kept.kept = g.kept := by
  obtain ⟨metadata, startEvent, targetEvent⟩ := g
  cases startEvent <;> cases targetEvent <;> simp [kept, Condition.kept_kept]

theorem isCanonical_kept : g.kept.IsCanonical := by
  constructor
  · intro c h
    obtain ⟨event, _, rfl⟩ := Option.map_eq_some_iff.1 h
    exact Condition.isCanonical_kept
  · intro c h
    obtain ⟨event, _, rfl⟩ := Option.map_eq_some_iff.1 h
    exact Condition.isCanonical_kept

/-- A goal that was read is as an item keeps it. -/
theorem kept_of_ofDocument? {d : Document} (h : ofDocument? d = some g) : g.kept = g := by
  have event : ∀ (field : Option Document) (c : Option Condition),
      Document.optional Condition.ofDocument? field = some c → c.map Condition.kept = c := by
    intro field c read
    rw [Document.optional.eq_def] at read
    split at read
    · cases read; rfl
    · cases read; rfl
    · obtain ⟨c, inner, rfl⟩ := Option.map_eq_some_iff.1 read
      exact congrArg some (Condition.kept_of_ofDocument? inner)
  simp only [ofDocument?, Option.pure_def, Option.bind_eq_bind] at h
  obtain ⟨record, _, h⟩ := Option.bind_eq_some_iff.1 h
  split at h
  · obtain ⟨metadata, _, h⟩ := Option.bind_eq_some_iff.1 h
    obtain ⟨startEvent, start, h⟩ := Option.bind_eq_some_iff.1 h
    obtain ⟨targetEvent, target, h⟩ := Option.bind_eq_some_iff.1 h
    cases h
    simp only [kept, event _ _ start, event _ _ target]
  · cases h

/-! ## The rules of a goal -/

/-- The condition of a step. -/
def event? (g : Goal) : FunnelStep → Option Condition
  | .start => g.startEvent
  | .target => g.targetEvent

theorem IsCanonical.event (h : g.IsCanonical) {step : FunnelStep} {c : Condition}
    (event : g.event? step = some c) : c.IsCanonical := by
  cases step with
  | start => exact h.startEvent c event
  | target => exact h.targetEvent c event

theorem mem_events {step : FunnelStep} {c : Condition} :
    (step, c) ∈ g.events ↔ g.event? step = some c := by
  cases step <;> simp [events, event?]

theorem mem_typeIds {id : String} :
    id ∈ g.typeIds ↔ ∃ step c, g.event? step = some c ∧ id ∈ c.typeIds := by
  simp only [typeIds, IdSet.mem_ofList, List.mem_flatMap, Prod.exists, mem_events, IdSet.mem_toList]

theorem referencesAny_iff {ids : IdSet} :
    g.referencesAny ids = true ↔ ∃ id ∈ g.typeIds, id ∈ ids := by
  simp only [referencesAny, List.any_eq_true, Prod.exists, mem_events, Condition.referencesAny,
    IdSet.meets_iff, mem_typeIds]
  constructor
  · rintro ⟨step, c, event, id, inside, listed⟩
    exact ⟨id, ⟨step, c, event, inside⟩, listed⟩
  · rintro ⟨id, ⟨step, c, event, inside⟩, listed⟩
    exact ⟨step, c, event, id, inside, listed⟩

/-- The rule of a step, if the goal has rules. -/
def rule? (g : Goal) (actionType : String) (step : FunnelStep) : Option Rule :=
  if g.isCompiled then (g.event? step).map (Rule.ofGoalStep g actionType step) else none

theorem isCompiled_kept : g.kept.isCompiled = g.isCompiled := by
  simp only [isCompiled, kept, Option.isSome_map]

theorem event?_kept {step : FunnelStep} :
    g.kept.event? step = (g.event? step).map Condition.kept := by
  cases step <;> rfl

theorem typeIds_kept (h : g.IsCanonical) : g.kept.typeIds = g.typeIds := by
  refine IdSet.ext fun id => ?_
  simp only [mem_typeIds, event?_kept, Option.map_eq_some_iff]
  constructor
  · rintro ⟨step, _, ⟨c, event, rfl⟩, inside⟩
    exact ⟨step, c, event, Condition.typeIds_kept (h.event event) ▸ inside⟩
  · rintro ⟨step, c, event, inside⟩
    exact ⟨step, c.kept, ⟨c, event, rfl⟩, (Condition.typeIds_kept (h.event event)).symm ▸ inside⟩

theorem event_of_rule? {actionType : String} {step : FunnelStep} {r : Rule}
    (h : g.rule? actionType step = some r) :
    ∃ c, g.event? step = some c ∧ r = Rule.ofGoalStep g actionType step c := by
  rw [rule?] at h
  split at h
  · obtain ⟨c, event, rfl⟩ := Option.map_eq_some_iff.1 h
    exact ⟨c, event, rfl⟩
  · cases h

theorem id_of_rule? {actionType : String} {step : FunnelStep} {r : Rule}
    (h : g.rule? actionType step = some r) : r.id = step.ruleId g.id := by
  obtain ⟨c, _, rfl⟩ := event_of_rule? h
  rfl

/-- There is a rule for either step or for none. -/
theorem isSome_rule? {actionType : String} {step : FunnelStep} :
    (g.rule? actionType step).isSome = true ↔ g.metadata.enabled = true ∧
      g.startEvent.isSome = true ∧ g.targetEvent.isSome = true := by
  obtain ⟨metadata, startEvent, targetEvent⟩ := g
  cases step <;> cases startEvent <;> cases targetEvent <;> simp [rule?, isCompiled, event?]

/-- Compiled goals have two rules, one for each step. -/
theorem rules_of_isCompiled {actionType : String} (h : g.isCompiled = true) :
    ∃ start target, g.rules actionType = [start, target] ∧ g.rule? actionType .start = some start ∧
      g.rule? actionType .target = some target := by
  obtain ⟨metadata, startEvent, targetEvent⟩ := g
  cases startEvent with
  | none => simp [isCompiled] at h
  | some start =>
    cases targetEvent with
    | none => simp [isCompiled] at h
    | some target =>
      simp only [rule?, if_pos h]
      exact ⟨_, _, rfl, rfl, rfl⟩

end Goal

namespace Action

/-- The action as an item keeps it. -/
def kept (a : Action) : Action where
  typeId := a.typeId
  parameters := Json.ordered a.parameters

theorem ofDocument?_toJson {layout : Layout} {a : Action} :
    ofDocument? (layout.document a.toJson) = some a.kept := by
  have written : a.toJson = .object (Record.written
      [["type", "actionTypeId"], ["parameterValues"]]
      [some (.string a.typeId), some (.object a.parameters)]) := rfl
  rw [ofDocument?, written, Layout.record?_written (by decide) rfl]
  simp [kept]

theorem list?_toJson {layout : Layout} {actions : List Action} :
    Document.list? ofDocument? (layout.document (.array (actions.map toJson))) =
      some (actions.map kept) := by
  rw [Layout.document_array, List.map_map]
  exact Document.list?_map fun _ => ofDocument?_toJson

end Action

namespace Rule

variable {r : Rule}

/-- The rule as an item keeps it. -/
def kept (r : Rule) : Rule where
  metadata := r.metadata
  condition := r.condition.kept
  actions := r.actions.map Action.kept

/-- The parts of a rule document. -/
private def parts (r : Rule) : List (Option Json) :=
  [some r.metadata.toJson, some r.condition.toJson, some (.array (r.actions.map Action.toJson))]

private theorem ofDocument?_of_parts {layout : Layout} {d : Document}
    (h : d.record? [["metadata"], ["condition"], ["actions"]] =
      some (r.parts.map (Option.map layout.document))) : ofDocument? d = some r.kept := by
  rw [ofDocument?, h]
  simp [parts, Metadata.ofDocument?_toJson, Condition.ofDocument?_toJson, Action.list?_toJson, kept,
    -Layout.document_array]

theorem ofDocument?_toJson {layout : Layout} :
    ofDocument? (layout.document r.toJson) = some r.kept := by
  refine @ofDocument?_of_parts r layout _ ?_
  have written : r.fields = Record.written [["metadata"], ["condition"], ["actions"]] r.parts := rfl
  rw [toJson, written, Layout.record?_written (by decide) rfl]

theorem toEntity_ofEntity : (Item.ofEntity r).toEntity Rule = .ok r.kept := by
  have written : Entity.fields r =
      Record.written [["metadata"], ["condition"], ["actions"]] r.parts := rfl
  have record := Item.record?_ofEntity_inside (by decide) (by decide) rfl written
  rw [Item.toEntity, if_neg (fun other => other rfl)]
  simp only [Entity.ofDocument?, ofDocument?_of_parts record]

/-- The item of a rule depends on its condition only by what is kept. -/
theorem ofEntity_congr {other : Rule} (metadata : r.metadata = other.metadata)
    (condition : r.condition.kept = other.condition.kept) (actions : r.actions = other.actions) :
    Item.ofEntity r = Item.ofEntity other := by
  have same : r.condition.toJson.canonical = other.condition.toJson.canonical := by
    rw [← Condition.canonical_toJson_kept, condition, Condition.canonical_toJson_kept]
  simp only [Item.ofEntity, Entity.id, Entity.fields, id, fields, Json.canonicalFields, metadata,
    same, actions]

end Rule

/-- The rule items of a goal depend on its conditions only by what is kept. -/
theorem Goal.map_rule?_congr {g other : Goal} {actionType : String} {step : FunnelStep}
    (h : g.kept = other.kept) : (g.rule? actionType step).map Item.ofEntity =
      (other.rule? actionType step).map Item.ofEntity := by
  have metadata : g.metadata = other.metadata := show g.kept.metadata = _ from h ▸ rfl
  have compiled : g.isCompiled = other.isCompiled := by
    rw [← isCompiled_kept, h, isCompiled_kept]
  have event : (g.event? step).map Condition.kept = (other.event? step).map Condition.kept := by
    rw [← event?_kept, h, event?_kept]
  simp only [rule?, compiled]
  split
  · cases one : g.event? step <;> cases two : other.event? step <;>
      simp only [one, two, Option.map_some, Option.map_none, reduceCtorEq,
        Option.some.injEq] at event ⊢
    refine Rule.ofEntity_congr ?_ event ?_ <;> simp only [Rule.ofGoalStep, Goal.id, metadata]
  · rfl

/-- A rule id tells its goal and its step. -/
theorem FunnelStep.ruleId_inj {step other : FunnelStep} {goalId otherId : String} :
    step.ruleId goalId = other.ruleId otherId ↔ step = other ∧ goalId = otherId := by
  constructor
  · intro same
    -- Either ending is fixed, so the goal id is found by reading from the end.
    have reversed : (step.ruleId goalId).toList.reverse = (other.ruleId otherId).toList.reverse :=
      same ▸ rfl
    cases step <;> cases other <;> simp [ruleId, text] at reversed ⊢ <;>
      exact String.toList_inj.1 reversed
  · rintro ⟨rfl, rfl⟩; rfl

end Clickstream
