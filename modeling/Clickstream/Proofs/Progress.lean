import Clickstream.Proofs.FieldPaths
import Clickstream.Proofs.Funnels
import Clickstream.Proofs.GoalItems

/-! # Progress stamped on sessions

A rule of a goal sets a property of the session, and a report of the goal follows a dotted path to
it. The two meet in a name that both make of the goal id and the step. A goal id may hold dots, so
the path can be cut in many ways, but the field of the whole name comes before every cut, and any
other field matters only if it holds an object for the path to go on in. A stamp that is no object
therefore counts for the goal it was made for and for no other.
-/

namespace Clickstream

/-! ## Sessions as items -/

namespace Json

variable {fields : Fields Json} {name : String} {value : Json}

theorem get?_ordered (h : fields.Ascending) :
    (ordered fields).get? name = (fields.get? name).map canonical := by
  rw [ordered_eq_mapValues h]
  exact Fields.get?_map fun _ => canonical

theorem ordered_insert (h : fields.Ascending) :
    ordered (fields.insert name value) = (ordered fields).insert name value.canonical := by
  rw [ordered_eq_mapValues h, ordered_eq_mapValues (h.insert name value), Fields.mapValues_insert]

theorem isNull_canonical : value.canonical.isNull = value.isNull := by
  cases value <;> simp [canonical, isNull]

theorem object?_canonical (h : value.object? = none) : value.canonical.object? = none := by
  cases value with
  | object fields => cases h
  | null | bool | number | string | array => simp [canonical, object?]

end Json

namespace Session

variable {s : Session} {path : String}

theorem body_ofEntity : (Item.ofEntity s).body =
    [("profileId", .string s.profileId), ("properties", .object (Json.ordered s.properties)),
      ("timeStamp", .string s.timeStamp.text)] := by
  simp only [Item.ofEntity, Entity.fields, Json.canonicalFields, Json.canonical, Json.ordered,
    Fields.sorted, Fields.insert, List.foldl_cons, List.foldl_nil, String.reduceEq,
    String.reduceLT, ↓reduceIte]
  rfl

/-- A path to a property is followed among the properties. -/
theorem field?_properties : (Item.ofEntity s).field? ("properties" ++ "." ++ path) =
    FieldPath.lookup (Json.ordered s.properties) (FieldPath.segments path) := by
  have other : ∀ {name : String}, name.toList.head? = some 'i' →
      "properties" ++ "." ++ path ≠ name := by
    intro name first same
    rw [← same] at first
    simp at first
  rw [Item.field?, if_neg (not_or.2 ⟨other rfl, other rfl⟩), body_ofEntity]
  refine FieldPath.lookup_append (by decide) ?_ rfl
  simp only [List.forall_mem_cons]
  decide

theorem stamped_iff {step : FunnelStep} {goalId : String} :
    Predicate.stamped (Item.ofEntity s) step.text goalId = true ↔
      ∃ value, FieldPath.lookup (Json.ordered s.properties)
        (FieldPath.segments (step.reachedProperty goalId)) = some value ∧ value.isNull = false := by
  have path : "properties." ++ goalId ++ "." ++ step.text ++ ".reached" =
      "properties" ++ "." ++ step.reachedProperty goalId := by
    rw [← String.toList_inj]
    simp [FunnelStep.reachedProperty]
  rw [Predicate.stamped, path, field?_properties]
  cases FieldPath.lookup (Json.ordered s.properties)
    (FieldPath.segments (step.reachedProperty goalId)) <;> simp [Predicate.isPresent]

/-- The properties hold a value other than null under the name that a step of a goal goes by. -/
def Stamp (s : Session) (step : FunnelStep) (goalId : String) : Prop :=
  ∃ value, s.properties.get? (step.reachedProperty goalId) = some value ∧ value.isNull = false

theorem Stamp.stamped (map : s.properties.Ascending) {step : FunnelStep} {goalId : String}
    (stamp : s.Stamp step goalId) :
    Predicate.stamped (Item.ofEntity s) step.text goalId = true := by
  obtain ⟨value, found, notNull⟩ := stamp
  refine stamped_iff.2 ⟨value.canonical, FieldPath.lookup_of_get? ?_, ?_⟩
  · rw [Json.get?_ordered map, found, Option.map_some]
  · rw [Json.isNull_canonical, notNull]

/-- Of properties that are no objects a stamp is the only sign of progress. -/
theorem stamped_iff_stamp (map : s.properties.Ascending)
    (flat : ∀ name value, s.properties.get? name = some value → value.object? = none)
    {step : FunnelStep} {goalId : String} :
    Predicate.stamped (Item.ofEntity s) step.text goalId = true ↔ s.Stamp step goalId := by
  refine ⟨fun progress => ?_, Stamp.stamped map⟩
  obtain ⟨value, found, notNull⟩ := stamped_iff.1 progress
  rw [FieldPath.lookup_eq_get?, Json.get?_ordered map, Option.map_eq_some_iff] at found
  · obtain ⟨value, found, rfl⟩ := found
    exact ⟨value, found, Json.isNull_canonical ▸ notNull⟩
  · intro name value found
    rw [Json.get?_ordered map, Option.map_eq_some_iff] at found
    obtain ⟨value, found, rfl⟩ := found
    exact Json.object?_canonical (flat name value found)

/-- The session with one more property. -/
def withProperty (s : Session) (name : String) (value : Json) : Session :=
  { s with properties := s.properties.insert name value }

/-- A new property that is no object matters to no other step. -/
theorem stamped_withProperty (map : s.properties.Ascending) {key : String} {value : Json}
    (absent : s.properties.get? key = none) (flat : value.object? = none) {step : FunnelStep}
    {goalId : String} (other : step.reachedProperty goalId ≠ key) :
    Predicate.stamped (Item.ofEntity (s.withProperty key value)) step.text goalId =
      Predicate.stamped (Item.ofEntity s) step.text goalId := by
  have same : FieldPath.lookup (Json.ordered (s.withProperty key value).properties)
      (FieldPath.segments (step.reachedProperty goalId)) =
      FieldPath.lookup (Json.ordered s.properties)
        (FieldPath.segments (step.reachedProperty goalId)) := by
    rw [withProperty, Json.ordered_insert map]
    refine FieldPath.lookup_insert ?_ (Json.object?_canonical flat) other
    rw [Json.get?_ordered map, absent, Option.map_none]
  rw [Bool.eq_iff_iff, stamped_iff, stamped_iff, same]

end Session

/-! ## What a report asks for -/

/-- The name of a stamp tells its goal and its step. -/
theorem FunnelStep.reachedProperty_inj {step other : FunnelStep} {goalId otherId : String} :
    step.reachedProperty goalId = other.reachedProperty otherId ↔
      step = other ∧ goalId = otherId := by
  constructor
  · intro same
    -- As with the ids of rules, the ending is fixed and the goal id is read from the end.
    have reversed : (step.reachedProperty goalId).toList.reverse =
        (other.reachedProperty otherId).toList.reverse := same ▸ rfl
    cases step <;> cases other <;> simp [reachedProperty, text] at reversed ⊢ <;>
      exact String.toList_inj.1 reversed
  · rintro ⟨rfl, rfl⟩; rfl

namespace Goals

theorem progressed_eq {session : Item} {goalId : String} {reached : Bool} :
    progressed session goalId reached =
      (Predicate.stamped session (FunnelStep.text .start) goalId &&
        (!reached || Predicate.stamped session (FunnelStep.text .target) goalId)) := rfl

/-- The property that a rule of a goal sets is the one that a report of the goal reads, whatever the
goal id: a session with these properties has progressed, and a property of this kind for another
goal changes nothing. -/
theorem outcome_stamped {s : Session} (map : s.properties.Ascending) (goalId : String) :
    (∀ (g : Goal) (actionType : String) (step : FunnelStep) (condition : Condition),
      g.id = goalId → ∃ action,
        (Rule.ofGoalStep g actionType step condition).actions = [action] ∧
        action.parameters.get? "setPropertyName" =
          some (.string (step.reachedProperty goalId)) ∧
        action.parameters.get? "storeInSession" = some (.bool true)) ∧
    (∀ (names : EvaluatorNames) (c : Condition), AsksProgress names c goalId false →
      s.Stamp .start goalId → Predicate.outcome names (Item.ofEntity s) c = .ok true) ∧
    (∀ (names : EvaluatorNames) (c : Condition), AsksProgress names c goalId true →
      s.Stamp .start goalId → s.Stamp .target goalId →
        Predicate.outcome names (Item.ofEntity s) c = .ok true) ∧
    ∀ (names : EvaluatorNames) (c : Condition) (reached : Bool),
      AsksProgress names c goalId reached →
      ∀ (other : String) (step : FunnelStep) (value : Json), other ≠ goalId →
        s.properties.get? (step.reachedProperty other) = none → value.object? = none →
          Predicate.outcome names
              (Item.ofEntity (s.withProperty (step.reachedProperty other) value)) c =
            Predicate.outcome names (Item.ofEntity s) c := by
  refine ⟨?_, ?_, ?_, ?_⟩
  · rintro g actionType step condition rfl
    exact ⟨_, rfl, by simp [Action.withParameter], by simp [Action.withParameter]⟩
  · intro names c asks start
    rw [asks.outcome, progressed_eq, start.stamped map]
    rfl
  · intro names c asks start target
    rw [asks.outcome, progressed_eq, start.stamped map, target.stamped map]
    rfl
  · intro names c reached asks other step value different absent flat
    have same : ∀ mine : FunnelStep,
        Predicate.stamped (Item.ofEntity (s.withProperty (step.reachedProperty other) value))
          mine.text goalId = Predicate.stamped (Item.ofEntity s) mine.text goalId := by
      intro mine
      refine Session.stamped_withProperty map absent flat fun equal => different ?_
      exact (FunnelStep.reachedProperty_inj.1 equal).2.symm
    rw [asks.outcome, asks.outcome, progressed_eq, progressed_eq, same, same]

/-- A goal whose id begins with that of another one, dots and all. -/
theorem outcome_stamped_dotted :
    let s : Session :=
      { id := "s1", profileId := "p1", timeStamp := default,
        properties := [("a.start.reached", .string "now")] }
    let c : Condition :=
      { typeId := "goalMatchCondition",
        parameters := [("goalId", .string "a"), ("goalReached", .bool false)] }
    Predicate.outcome (fun _ => none) (Item.ofEntity s) c = .ok true ∧
      Predicate.outcome (fun _ => none)
        (Item.ofEntity (s.withProperty "a.start.start.reached" .null)) c = .ok true := by
  intro s c
  have map : s.properties.Ascending := List.pairwise_singleton _ _
  have asks : AsksProgress (fun _ => none) c "a" false := ⟨rfl, rfl, rfl⟩
  obtain ⟨_, entered, _, others⟩ := outcome_stamped map "a"
  have start := entered (fun _ => none) c asks ⟨.string "now", rfl, rfl⟩
  refine ⟨start, ?_⟩
  rw [← start]
  exact others _ c false asks "a.start" .start .null (by decide) (by decide) rfl

end Goals

end Clickstream
