import Clickstream.Proofs.Nesting
import Clickstream.Proofs.SessionIsolation
import Clickstream.Proofs.Reencoding
import Clickstream.Proofs.Progress

/-! # Asking for stored events

A condition on events goes to the store as a query that is put together of values: the condition on
one event that stands among its parameters, and a comparison of the session. The store reads the
query back and tries it on all events of all sessions. What it finds are the events of the session
that satisfy the condition on one event, as long as no predicate of the query goes by another name
and that condition has no error on any event.
-/

namespace Clickstream

/-! ## Events as items -/

namespace Event

variable {e : Event} {sessionId : String}

theorem body_ofEntity : (Item.ofEntity e).body =
    [("eventType", .string e.eventType), ("profileId", .string e.profileId),
      ("properties", .object (Json.ordered e.properties)), ("sessionId", .string e.sessionId),
      ("timeStamp", .string e.timeStamp.text)] := by
  simp only [Item.ofEntity, Entity.fields, Json.canonicalFields, Json.canonical, Json.ordered,
    Fields.sorted, Fields.insert, List.foldl_cons, List.foldl_nil, String.reduceEq,
    String.reduceLT, ↓reduceIte]
  rfl

theorem field?_eventType : (Item.ofEntity e).field? "eventType" = some (.string e.eventType) := by
  rw [Item.field?, if_neg (by decide), body_ofEntity]
  exact FieldPath.lookup_of_get? rfl

theorem field?_sessionId : (Item.ofEntity e).field? "sessionId" = some (.string e.sessionId) := by
  rw [Item.field?, if_neg (by decide), body_ofEntity]
  exact FieldPath.lookup_of_get? rfl

theorem value?_timeStamp :
    (Item.ofEntity e).value? "timeStamp" = some (.string e.timeStamp.text) := by
  rw [Item.value?, if_neg (by decide), if_neg (by decide), Item.field?, if_neg (by decide),
    body_ofEntity]
  exact FieldPath.lookup_of_get? rfl

theorem isOf_ofEntity : (Item.ofEntity e).isOf sessionId = (e.sessionId == sessionId) := by
  rw [Bool.eq_iff_iff, Item.isOf_iff field?_sessionId, beq_iff_eq]

end Event

/-- The events that a store holds, in the order of their ids. -/
structure Store.HoldsEvents (store : Store) (events : List Event) : Prop where
  ascending : events.Pairwise fun a b => a.id < b.id
  load_iff : ∀ id item, store.load "event" id = some item ↔
    ∃ e ∈ events, e.id = id ∧ Item.ofEntity e = item

theorem Store.HoldsEvents.all {store : Store} {events : List Event}
    (h : store.HoldsEvents events) : store.all "event" = events.map Item.ofEntity := by
  have listed : Fields.Ascending (events.map fun e => (e.id, Item.ofEntity e)) :=
    List.pairwise_map.2 h.ascending
  have same : ((store.items.get? "event").getD .empty).entries =
      events.map fun e => (e.id, Item.ofEntity e) := by
    refine (Table.ascending _).ext listed fun id => Option.ext fun item => ?_
    have found := h.load_iff id item
    rw [Store.load_eq_get?] at found
    refine found.trans (Iff.trans ?_ listed.mem_iff)
    simp only [List.mem_map, Prod.mk.injEq]
  rw [Store.all, Table.values, same, List.map_map]
  rfl

theorem Store.holdsEvents_of_entries {store : Store} {events : List Event}
    (listed : ((store.items.get? "event").getD .empty).entries =
      events.map fun e => (e.id, Item.ofEntity e)) : store.HoldsEvents events where
  ascending := by
    have ascending := ((store.items.get? "event").getD .empty).ascending
    rw [listed, Fields.Ascending, List.pairwise_map] at ascending
    exact ascending
  load_iff id item := by
    rw [Store.load_eq_get?, ← Table.mem_entries, listed]
    simp only [List.mem_map, Prod.mk.injEq]

/-! ## Conditions on events -/

/-- The registry gives no other name to the predicates that queries for events are made of. -/
structure EvaluatorNames.Unmoved (names : EvaluatorNames) : Prop where
  conjunction : (names "andCondition").getD "andCondition" = "andCondition"
  comparison : (names "propertyCondition").getD "propertyCondition" = "propertyCondition"
  everything : (names "matchAllCondition").getD "matchAllCondition" = "matchAllCondition"

theorem EvaluatorNames.Unmoved.plain {names : EvaluatorNames} (h : names.Unmoved) :
    names.Plain where
  conjunction := by rw [h.conjunction]; rfl
  comparison := by rw [h.comparison]; rfl

namespace Evaluation

/-- What a condition asks of one event: nothing, or what the document among its parameters says. -/
inductive AsksOf (names : EvaluatorNames) (c : Condition) : (Item → Outcome) → Prop where
  | nothing : c.parameter? "eventCondition" = none → AsksOf names c fun _ => .ok true
  | document {fields : Fields Json} {event : Condition} :
      c.parameter? "eventCondition" = some (.object fields) →
      Condition.ofJson? (.object fields) = some event →
      AsksOf names c fun item => Predicate.outcome names item event

/-- A condition that resolves as one on events, with the stored events and those of them that satisfy
what it asks of one event; that has no error on any of them. -/
structure AsksForEvents (facts : Facts) (c : Condition) (stored : List Event)
    (satisfies : Event → Bool) : Prop where
  holds : facts.store.HoldsEvents stored
  unmoved : facts.names.Unmoved
  canonical : c.IsCanonical
  category : ∃ resolved, c.resolve facts.registry = .ok resolved ∧
    (resolved.resolved.getD default).category = .event
  asks : ∃ outcome, AsksOf facts.names c outcome ∧
    ∀ e ∈ stored, outcome (Item.ofEntity e) = .ok (satisfies e)

variable {facts : Facts} {c event : Condition} {stored : List Event} {satisfies : Event → Bool}
  {names : EvaluatorNames} {outcome : Item → Outcome}

/-- The condition that goes into the query says of an item what was asked. -/
theorem AsksOf.exists_eventCondition (h : AsksOf names c outcome) (unmoved : names.Unmoved)
    (canonical : c.IsCanonical) : ∃ event, eventCondition c = .ok event ∧
      ∀ item, Predicate.outcome names item event.kept = outcome item := by
  cases h with
  | nothing absent =>
    refine ⟨{ typeId := "matchAllCondition" }, ?_, fun item => ?_⟩
    · rw [eventCondition, Condition.condition?, Condition.conditions, absent]
      rfl
    · have kind : Predicate.Kind.ofName? (Condition.evaluator names
          (Condition.kept { typeId := "matchAllCondition" })) = some .matchAll := by
        change Predicate.Kind.ofName? ((names "matchAllCondition").getD "matchAllCondition") = _
        rw [unmoved.everything]
        rfl
      rw [Predicate.outcome, kind]
  | document found read =>
    rename_i fields event
    have kept : event.kept = event := by
      refine Condition.kept_of_ofJson? ?_ read
      refine Json.canonical_of_mem_fields ?_ (Fields.mem_of_get? found)
      exact congrArg Json.object canonical
    refine ⟨event, ?_, fun item => by rw [kept]⟩
    rw [eventCondition, Condition.condition?, Condition.conditions, found]
    simp only [Condition.ofValues?, List.mapM_cons, read]
    rfl

/-- The events of a session that satisfy what is asked of one event. -/
def found (sessionId : String) (satisfies : Event → Bool) (stored : List Event) : List Event :=
  stored.filter fun e => satisfies e && e.sessionId == sessionId

end Evaluation

theorem Store.satisfying_map {items : List Event} {outcome : Item → Outcome}
    {holds : Event → Bool} (each : ∀ e ∈ items, outcome (Item.ofEntity e) = .ok (holds e)) :
    satisfying outcome (items.map Item.ofEntity) = .ok ((items.filter holds).map Item.ofEntity) := by
  induction items with
  | nil => rfl
  | cons e rest ih =>
    obtain ⟨first, others⟩ := List.forall_mem_cons.1 each
    rw [List.map_cons, satisfying, first, ih others, List.filter_cons]
    cases holds e <;> rfl

namespace Evaluation

/-- What the query that is put together finds. -/
theorem AsksForEvents.events_eq (h : AsksForEvents facts c stored satisfies) :
    ∃ event, eventCondition c = .ok event ∧
      events facts (inSessionSatisfying facts.session.id event) =
        .ok (Store.sortBy (Store.precedes "timeStamp")
          ((found facts.session.id satisfies stored).map Item.ofEntity)) := by
  obtain ⟨outcome, asks, each⟩ := h.asks
  obtain ⟨event, read, same⟩ := asks.exists_eventCondition h.unmoved h.canonical
  refine ⟨event, read, ?_⟩
  rw [events, Store.query, Store.matching, h.holds.all, Store.satisfying_map fun e member => ?_]
  · rfl
  · rw [outcome_inSessionSatisfying h.unmoved.plain, same, each e member, Event.isOf_ofEntity]
    rfl

theorem AsksForEvents.own_eq (h : AsksForEvents facts c stored satisfies) :
    facts.own = (stored.filter (·.sessionId == facts.session.id)).map Item.ofEntity := by
  rw [Facts.own, h.holds.all, List.filter_map]
  congr 1
  exact List.filter_congr fun e _ => Event.isOf_ofEntity

/-- Evaluating such a condition holds it against the events that the query finds. -/
theorem AsksForEvents.value_evaluate_eq (h : AsksForEvents facts c stored satisfies) :
    (evaluate facts c).value =
      let matching := Store.sortBy (Store.precedes "timeStamp")
        ((found facts.session.id satisfies stored).map Item.ofEntity)
      if c.string? "eventOccurIn" = some "last" then lastOccurs facts matching
      else match bounds c with
        | .error _ => .ok false
        | .ok (least, most) => .ok (least ≤ matching.length ∧ matching.length ≤ most) := by
  obtain ⟨resolved, resolves, category⟩ := h.category
  obtain ⟨-, rfl⟩ := Condition.resolve_eq_ok_iff.1 resolves
  obtain ⟨event, read, queried⟩ := h.events_eq
  rw [value_evaluate, resolves]
  dsimp only
  rw [category]
  dsimp only
  -- The type that was looked up is no parameter.
  have asked : eventCondition { c with resolved := facts.registry.conditionType? c.typeId } =
      .ok event := read
  have place : Condition.string? { c with resolved := facts.registry.conditionType? c.typeId }
      "eventOccurIn" = c.string? "eventOccurIn" := rfl
  have limits : bounds { c with resolved := facts.registry.conditionType? c.typeId } = bounds c :=
    rfl
  rw [matchEvents, asked]
  simp only [queried, place, limits]
  split
  · rfl
  · cases bounds c <;> rfl

end Evaluation

end Clickstream
