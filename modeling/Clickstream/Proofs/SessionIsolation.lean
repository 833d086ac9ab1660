import Clickstream.Evaluation
import Clickstream.Proofs.Holdings
import Clickstream.Proofs.Queries

/-! # Events of other sessions

A condition on events asks for the events of one session, but the store tries it on every event and
only then looks at the session of the event. So an event of another session never counts, and still
an error on it ends the evaluation. That is the only way in which such events show, as long as the
registry leaves the two predicates alone that the query for the session is made of.
-/

namespace Clickstream

/-- Whether an event belongs to a session, as the store compares the two ids. -/
def Item.isOf (item : Item) (sessionId : String) : Bool :=
  (((item.value? "sessionId").map Predicate.candidates).getD []).any
    (·.looselyEqual (.string sessionId))

/-- An event that names its session belongs to no other one. -/
theorem Item.isOf_iff {item : Item} {name sessionId : String}
    (h : item.field? "sessionId" = some (.string name)) :
    item.isOf sessionId = true ↔ name = sessionId := by
  have value : item.value? "sessionId" = some (.string name) := by
    rw [Item.value?, if_neg (by decide), if_neg (by decide), h]
  simp [isOf, value, Predicate.candidates, Json.looselyEqual, Json.same, Json.isNumber]

/-- The predicates that queries for events of a session are made of are not overruled. -/
structure EvaluatorNames.Plain (names : EvaluatorNames) : Prop where
  conjunction : Predicate.Kind.ofName? ((names "andCondition").getD "andCondition") =
    some (.combination .and)
  comparison : Predicate.Kind.ofName? ((names "propertyCondition").getD "propertyCondition") =
    some .property

namespace Evaluation

variable {names : EvaluatorNames} {item : Item} {sessionId : String} {event : Condition}

/-! ## Queries for events of a session -/

theorem kept_inSession : (inSession sessionId).kept = inSession sessionId := by
  simp only [inSession, Condition.withParameter, Condition.kept, Json.ordered, Json.canonicalFields,
    Json.canonical, Fields.sorted, Fields.insert, List.foldl_cons, List.foldl_nil,
    String.reduceEq, String.reduceLT, ↓reduceIte]

theorem outcome_inSession (plain : names.Plain) :
    Predicate.outcome names item (inSession sessionId) = .ok (item.isOf sessionId) := by
  have comparison : Predicate.Kind.ofName? ((inSession sessionId).evaluator names) =
      some .property := plain.comparison
  have name : (inSession sessionId).string? "propertyName" = some "sessionId" := rfl
  have operator : (inSession sessionId).string? "comparisonOperator" = some "equals" := rfl
  have value : Predicate.expected? (inSession sessionId) = some (.string sessionId) := rfl
  rw [Predicate.outcome, comparison]
  simp only [Predicate.property, Predicate.required, name, operator, Option.getD_some, Item.isOf,
    bind, Except.bind]
  cases item.value? "sessionId" with
  | none => rfl
  | some found =>
    cases found with
    | null => rfl
    | bool | number | string | array | object =>
      simp only [Predicate.comparePresent, Predicate.against, value]
      rfl

/-- The condition comes first, so its errors count for events of any session. -/
theorem outcome_inSessionSatisfying (plain : names.Plain) :
    Predicate.outcome names item (inSessionSatisfying sessionId event) =
      (Predicate.outcome names item event.kept).map (· && item.isOf sessionId) := by
  have conjunction : Predicate.Kind.ofName?
      (({ typeId := "andCondition" } : Condition).evaluator names) = some (.combination .and) :=
    plain.conjunction
  rw [inSessionSatisfying, Predicate.outcome_withConditions conjunction, kept_inSession,
    outcome_inSession plain]
  cases Predicate.outcome names item event.kept with
  | error e => rfl
  | ok holds =>
    cases holds with
    | true => cases item.isOf sessionId <;> rfl
    | false => rfl

end Evaluation

/-- Items that cannot satisfy a condition matter only by an error on one of them. -/
theorem Store.satisfying_cases {outcome : Item → Outcome} {own : Item → Bool} {items : List Item}
    (foreign : ∀ item, own item = false → outcome item ≠ .ok true) :
    (∃ item ∈ items, own item = false ∧
      ∃ e, outcome item = .error e ∧ satisfying outcome items = .error e) ∨
    satisfying outcome items = satisfying outcome (items.filter own) := by
  induction items with
  | nil => exact .inr rfl
  | cons item rest ih =>
    rw [satisfying]
    cases tried : outcome item with
    | error e =>
      cases isOwn : own item with
      | true =>
        right
        rw [List.filter_cons_of_pos isOwn, satisfying, tried]
        rfl
      | false => exact .inl ⟨item, List.mem_cons_self, isOwn, e, tried, rfl⟩
    | ok holds =>
      rcases ih with ⟨other, member, notOwn, e, raised, ended⟩ | same
      · refine .inl ⟨other, List.mem_cons_of_mem _ member, notOwn, e, raised, ?_⟩
        rw [ended]
        rfl
      · right
        cases isOwn : own item with
        | true => rw [List.filter_cons_of_pos isOwn, satisfying, tried, same]
        | false =>
          have fails : holds = false := by
            cases holds with
            | true => exact (foreign item isOwn tried).elim
            | false => rfl
          rw [List.filter_cons_of_neg (by simp [isOwn]), same, fails]
          cases satisfying outcome (rest.filter own) <;> rfl

namespace Facts

/-- The events of the session. -/
def own (facts : Facts) : List Item :=
  (facts.store.all "event").filter (·.isOf facts.session.id)

/-- A condition has an error on an event of another session. -/
structure Strays (facts : Facts) (event : Condition) (item : Item) (e : StoreError) : Prop where
  stored : item ∈ facts.store.all "event"
  foreign : item.isOf facts.session.id = false
  raised : Predicate.outcome facts.names item event = .error e

end Facts

namespace Evaluation

variable {facts : Facts} {other : Store} {c event : Condition}

theorem events_inSession (plain : facts.names.Plain) :
    events facts (inSession facts.session.id) =
      .ok (Store.sortBy (Store.precedes "timeStamp") facts.own) := by
  simp only [events, Store.query, Store.matching, outcome_inSession plain, Store.satisfying_ok]
  rfl

/-- The events of a session are all that a query for them depends on, unless it fails on another
event. -/
theorem events_cases (plain : facts.names.Plain) :
    (∃ item e, facts.Strays event.kept item e ∧
      events facts (inSessionSatisfying facts.session.id event) = .error e) ∨
    events facts (inSessionSatisfying facts.session.id event) =
      (Store.satisfying (fun item => (Predicate.outcome facts.names item event.kept).map
        (· && item.isOf facts.session.id)) facts.own).map
          (Store.sortBy (Store.precedes "timeStamp")) := by
  have foreign : ∀ item : Item, item.isOf facts.session.id = false →
      (Predicate.outcome facts.names item event.kept).map (· && item.isOf facts.session.id) ≠
        .ok true := by
    intro item notOwn holds
    rw [notOwn] at holds
    cases tried : Predicate.outcome facts.names item event.kept with
    | error e => rw [tried] at holds; cases holds
    | ok b => rw [tried] at holds; cases b <;> cases holds
  simp only [events, Store.query, Store.matching, outcome_inSessionSatisfying plain]
  rcases @Store.satisfying_cases _ _ (facts.store.all "event") foreign with
    ⟨item, member, notOwn, e, raised, ended⟩ | same
  · refine .inl ⟨item, e, ⟨member, notOwn, ?_⟩, by rw [ended]; rfl⟩
    cases tried : Predicate.outcome facts.names item event.kept with
    | error cause => rw [tried] at raised; cases raised; rfl
    | ok b => rw [tried] at raised; cases raised
  · right
    rw [same, Facts.own]
    rfl

/-! ## Evaluating with two stores -/

/-- Holding a condition against the events of a session with two stores that have the same events of
the session leads to the same, unless it fails on another event. -/
theorem value_matchEvents_cases (plain : facts.names.Plain)
    (own : facts.own = { facts with store := other }.own) :
    (∃ event item e, eventCondition c = .ok event ∧ facts.Strays event.kept item e ∧
      (matchEvents facts c).value = .error e) ∨
    (∃ event item e, eventCondition c = .ok event ∧
      { facts with store := other }.Strays event.kept item e ∧
      (matchEvents { facts with store := other } c).value = .error e) ∨
    (matchEvents facts c).value = (matchEvents { facts with store := other } c).value := by
  cases read : eventCondition c with
  | error cause =>
    right; right
    rw [matchEvents, matchEvents, read]
  | ok event =>
    rcases @events_cases facts event plain with ⟨item, e, strays, ended⟩ | here
    · refine .inl ⟨event, item, e, rfl, strays, ?_⟩
      rw [matchEvents, read]
      simp only [ended]
      rfl
    rcases @events_cases { facts with store := other } event plain with
      ⟨item, e, strays, ended⟩ | there
    · refine .inr (.inl ⟨event, item, e, rfl, strays, ?_⟩)
      rw [matchEvents, read]
      simp only [ended]
      rfl
    -- Both queries found the same events, and the session has the same ones in both stores.
    right; right
    have last (matching : List Item) :
        lastOccurs facts matching = lastOccurs { facts with store := other } matching := by
      rw [lastOccurs, lastOccurs, events_inSession plain,
        @events_inSession { facts with store := other } plain, own]
    rw [matchEvents, matchEvents, read]
    simp only [here, there, ← own, last]

/-- The outcome of a combination follows the sub-conditions one by one. -/
theorem value_combine_cons {α : Type} {operator : BooleanOperator} {evaluate : α → Logged Outcome}
    {sub : α} {rest : List α} :
    (combine operator evaluate (sub :: rest)).value = match (evaluate sub).value with
      | .error e => .error e
      | .ok b => if b = decisive operator then .ok b
        else (combine operator evaluate rest).value := by
  rw [combine, Logged.value_bind]
  cases (evaluate sub).value with
  | error e => rfl
  | ok b => dsimp only; split <;> rfl

theorem combine_attach {operator : BooleanOperator} {evaluate : Condition → Logged Outcome}
    {subs : List Condition} :
    combine operator (fun sub : { sub // sub ∈ subs } => evaluate sub.1) subs.attach =
      combine operator evaluate subs := by
  have each : ∀ subs' : List { sub // sub ∈ subs },
      combine operator (fun sub : { sub // sub ∈ subs } => evaluate sub.1) subs' =
        combine operator evaluate (subs'.map Subtype.val) := by
    intro subs'
    induction subs' with
    | nil => rfl
    | cons sub rest ih => rw [List.map_cons, combine, combine, ih]
  rw [each, List.attach_map_subtype_val]

/-- What evaluating a condition comes to, by its category. -/
theorem value_evaluate : (evaluate facts c).value =
    match c.resolve facts.registry with
    | .error _ => .ok false
    | .ok resolved =>
      match (resolved.resolved.getD default).category with
      | .event => (matchEvents facts resolved).value
      | .profile => Store.testMatch facts.names resolved facts.profile
      | .session => Store.testMatch facts.names resolved facts.session
      | .logical =>
        match operator c (resolved.resolved.getD default).type, c.subConditions with
        | .ok operator, .ok subs => (combine operator (evaluate facts) subs).value
        | _, _ => .ok false
      | .unclassified => .ok false := by
  rw [evaluate]
  cases c.resolve facts.registry with
  | error e => rfl
  | ok resolved =>
    dsimp only
    cases (resolved.resolved.getD default).category with
    | event | profile | session | unclassified => rfl
    | logical =>
      dsimp only
      cases operator c (resolved.resolved.getD default).type with
      | error cause => rfl
      | ok operator =>
        dsimp only
        split
        · next cause read => rw [read]; rfl
        · next subs read => rw [read]; exact congrArg Logged.value combine_attach

/-- Combinations of sub-conditions that each lead to the same lead to the same, up to an error that
one of them ends in. -/
theorem value_combine_cases {α : Type} {operator : BooleanOperator} {f g : α → Logged Outcome}
    {subs : List α} {here there : α → StoreError → Prop}
    (endsHere : ∀ sub e, here sub e → (f sub).value = .error e)
    (endsThere : ∀ sub e, there sub e → (g sub).value = .error e)
    (each : ∀ sub ∈ subs, (∃ e, here sub e) ∨ (∃ e, there sub e) ∨ (f sub).value = (g sub).value) :
    (∃ sub ∈ subs, ∃ e, here sub e ∧ (combine operator f subs).value = .error e) ∨
    (∃ sub ∈ subs, ∃ e, there sub e ∧ (combine operator g subs).value = .error e) ∨
    (combine operator f subs).value = (combine operator g subs).value := by
  induction subs with
  | nil => exact .inr (.inr rfl)
  | cons sub rest ih =>
    obtain ⟨first, others⟩ := List.forall_mem_cons.1 each
    simp only [value_combine_cons]
    rcases first with ⟨e, fails⟩ | ⟨e, fails⟩ | same
    · exact .inl ⟨sub, List.mem_cons_self, e, fails, by rw [endsHere sub e fails]⟩
    · exact .inr (.inl ⟨sub, List.mem_cons_self, e, fails, by rw [endsThere sub e fails]⟩)
    rw [same]
    cases (g sub).value with
    | error e => exact .inr (.inr rfl)
    | ok b =>
      dsimp only
      split
      · exact .inr (.inr rfl)
      · rcases ih others with ⟨s, member, fails⟩ | ⟨s, member, fails⟩ | same
        · exact .inl ⟨s, List.mem_cons_of_mem _ member, fails⟩
        · exact .inr (.inl ⟨s, List.mem_cons_of_mem _ member, fails⟩)
        · exact .inr (.inr same)

/-- Evaluating a condition holds another one against events: the condition on events that it holds
itself, or one that a sub-condition asks about. -/
inductive Asks (r : Registry) : Condition → Condition → Prop
  | events {c resolved event : Condition} : c.resolve r = .ok resolved →
    (resolved.resolved.getD default).category = .event →
    eventCondition resolved = .ok event → Asks r c event.kept
  | sub {c sub event : Condition} {resolved : Condition} {subs : List Condition} :
    c.resolve r = .ok resolved → (resolved.resolved.getD default).category = .logical →
    c.subConditions = .ok subs → sub ∈ subs → Asks r sub event → Asks r c event

/-- Evaluating a condition ends in an error that a condition on events has on an event of another
session. -/
def FailsElsewhere (facts : Facts) (c : Condition) (e : StoreError) : Prop :=
  (evaluate facts c).value = .error e ∧
    ∃ event item, Asks facts.registry c event ∧ facts.Strays event item e

/-- Two stores with the same events of the session lead to the same outcome, unless an event of
another session ends one of the evaluations. -/
theorem value_evaluate_cases (plain : facts.names.Plain)
    (own : facts.own = { facts with store := other }.own) (c : Condition) :
    (∃ e, FailsElsewhere facts c e) ∨ (∃ e, FailsElsewhere { facts with store := other } c e) ∨
      (evaluate facts c).value = (evaluate { facts with store := other } c).value := by
  -- Sub-conditions have smaller parameters than the condition that they are read from.
  induction size : sizeOf c.parameters using Nat.strongRecOn generalizing c with
  | ind n ih =>
    simp only [FailsElsewhere]
    rw [value_evaluate, value_evaluate]
    cases resolves : c.resolve facts.registry with
    | error e => exact .inr (.inr rfl)
    | ok resolved =>
      dsimp only
      cases category : (resolved.resolved.getD default).category with
      | profile | session | unclassified => exact .inr (.inr rfl)
      | event =>
        rcases @value_matchEvents_cases facts other resolved plain own with
          ⟨event, item, e, read, strays, ended⟩ | ⟨event, item, e, read, strays, ended⟩ | same
        · exact .inl ⟨e, ended, _, item, .events resolves category read, strays⟩
        · exact .inr (.inl ⟨e, ended, _, item, .events resolves category read, strays⟩)
        · exact .inr (.inr same)
      | logical =>
        cases operator c (resolved.resolved.getD default).type with
        | error cause => exact .inr (.inr rfl)
        | ok operator =>
          cases read : c.subConditions with
          | error cause => exact .inr (.inr rfl)
          | ok subs =>
            dsimp only
            rcases value_combine_cases (fun _ _ fails => fails.1) (fun _ _ fails => fails.1)
              (fun sub member => ih _
                (size ▸ Condition.sizeOf_lt_of_mem_conditions read member) sub rfl) with
              ⟨sub, member, e, ⟨_, event, item, asks, strays⟩, ended⟩ |
              ⟨sub, member, e, ⟨_, event, item, asks, strays⟩, ended⟩ | same
            · exact .inl ⟨e, ended, event, item, .sub resolves category read member asks, strays⟩
            · exact .inr (.inl
                ⟨e, ended, event, item, .sub resolves category read member asks, strays⟩)
            · exact .inr (.inr same)

end Evaluation

/-- Two stores have the same events of a session. -/
def Store.SameSession (a b : Store) (sessionId : String) : Prop :=
  ∀ id item, item.isOf sessionId = true →
    (a.load "event" id = some item ↔ b.load "event" id = some item)

/-- The same truth value, or an error in both. -/
def Outcome.Agrees : Outcome → Outcome → Prop
  | .ok a, .ok b => a = b
  | .error _, .error _ => True
  | _, _ => False

theorem Store.filter_all {store : Store} {type : String} {keep : Item → Bool} :
    (store.all type).filter keep =
      (((store.items.get? type).getD .empty).filter fun _ item => keep item).values := by
  rw [all, Table.values, Table.values, List.filter_map]
  rfl

theorem Facts.own_congr {facts : Facts} {other : Store}
    (same : facts.store.SameSession other facts.session.id) :
    facts.own = { facts with store := other }.own := by
  rw [own, own, Store.filter_all, Store.filter_all]
  congr 1
  refine Table.ext fun id => Option.ext fun item => ?_
  simp only [Table.get?_filter, Option.filter_eq_some_iff, ← Store.load_eq_get?]
  exact and_congr_left fun isOwn => same id item isOwn

/-- Two stores with the same events of a session agree on a condition exactly if no evaluation that
ends in an error on an event of another session stands against one without an error. -/
theorem Evaluation.agrees_iff {facts : Facts} {other : Store} (plain : facts.names.Plain)
    (same : facts.store.SameSession other facts.session.id) (c : Condition) :
    Outcome.Agrees (evaluate facts c).value (evaluate { facts with store := other } c).value ↔
      (∀ e, FailsElsewhere facts c e →
        ∃ e', (evaluate { facts with store := other } c).value = .error e') ∧
      ∀ e, FailsElsewhere { facts with store := other } c e →
        ∃ e', (evaluate facts c).value = .error e' := by
  constructor
  · intro agrees
    refine ⟨fun e fails => ?_, fun e fails => ?_⟩
    · rw [fails.1] at agrees
      cases there : (evaluate { facts with store := other } c).value with
      | error e' => exact ⟨e', rfl⟩
      | ok b => rw [there] at agrees; exact agrees.elim
    · rw [fails.1] at agrees
      cases here : (evaluate facts c).value with
      | error e' => exact ⟨e', rfl⟩
      | ok b => rw [here] at agrees; exact agrees.elim
  · rintro ⟨fromHere, fromThere⟩
    rcases value_evaluate_cases plain (Facts.own_congr same) c with
      ⟨e, fails⟩ | ⟨e, fails⟩ | equal
    · obtain ⟨e', ended⟩ := fromHere e fails
      rw [fails.1, ended]
      trivial
    · obtain ⟨e', ended⟩ := fromThere e fails
      rw [fails.1, ended]
      trivial
    · rw [equal]
      cases (evaluate { facts with store := other } c).value with
      | error e => trivial
      | ok b => rfl

/-- A condition type that asks for events, and one for their properties. -/
def eventTypes : Registry :=
  ((({} : Registry).registerConditionType
    { id := "sessionEventCondition", declaredCategory := some .event }).value.registerConditionType
      { id := "eventPropertyCondition" }).value

/-- At least one event, by a comparison that lacks the value to compare with. -/
def purchaseAbove : Condition :=
  ({ typeId := "sessionEventCondition" } : Condition)
    |>.withCondition "eventCondition"
      { typeId := "eventPropertyCondition"
        parameters := [("comparisonOperator", .string "greaterThan"),
          ("propertyName", .string "properties.amount")] }
    |>.withParameter "minimumEventCount" (.number (.integer 1))

/-- A session without events. -/
def quietSession : Facts where
  registry := eventTypes
  store := {}
  names := eventTypes.evaluatorNames
  profile := Item.ofEntity { id := "p1" : Profile }
  session := Item.ofEntity { id := "s1", profileId := "p1", timeStamp := default : Session }

/-- A purchase in another session. -/
def foreignPurchase : Item :=
  Item.ofEntity (Event.inSession { id := "s2", profileId := "p2", timeStamp := default } "e2"
    "purchase" [("amount", .number (.integer 5))])

/-- A store with the purchase alone. -/
def foreignStore : Store where
  items := Store.put {} foreignPurchase

theorem plain_eventTypes : quietSession.names.Plain := ⟨rfl, rfl⟩

/-- The purchase is none of the session's events. -/
theorem sameSession_foreignStore :
    quietSession.store.SameSession foreignStore quietSession.session.id := by
  have all : foreignStore.all "event" = [foreignPurchase] := rfl
  have foreign : foreignPurchase.isOf quietSession.session.id = false := by decide +kernel
  intro id item isOwn
  constructor
  · intro found
    cases found
  · intro found
    have member := Store.mem_all.2 ⟨id, found⟩
    rw [all, List.mem_singleton] at member
    rw [member, foreign] at isOwn
    cases isOwn

theorem evaluate_quietSession :
    (Evaluation.evaluate quietSession purchaseAbove).value = .ok false := by
  have outcome : (Evaluation.evaluate quietSession purchaseAbove).value.toOption = some false := by
    decide +kernel
  cases ended : (Evaluation.evaluate quietSession purchaseAbove).value with
  | ok b => rw [ended] at outcome; cases outcome; rfl
  | error e => rw [ended] at outcome; cases outcome

theorem evaluate_foreignStore : ∃ e,
    (Evaluation.evaluate { quietSession with store := foreignStore } purchaseAbove).value =
      .error e := by
  have outcome : (Evaluation.evaluate { quietSession with store := foreignStore }
      purchaseAbove).value.toOption = none := by decide +kernel
  cases ended : (Evaluation.evaluate { quietSession with store := foreignStore }
      purchaseAbove).value with
  | ok b => rw [ended] at outcome; cases outcome
  | error e => exact ⟨e, rfl⟩

/-- A purchase in another session turns an outcome into an error. -/
theorem Evaluation.foreignPurchase_shows :
    quietSession.store.SameSession foreignStore quietSession.session.id ∧
      (evaluate quietSession purchaseAbove).value = .ok false ∧
      ∃ e, (evaluate { quietSession with store := foreignStore } purchaseAbove).value = .error e :=
  ⟨sameSession_foreignStore, evaluate_quietSession, evaluate_foreignStore⟩

/-- That error is one on an event of another session, and so the two evaluations do not agree. -/
theorem Evaluation.agrees_iff_foreignPurchase :
    quietSession.names.Plain ∧
      quietSession.store.SameSession foreignStore quietSession.session.id ∧
      (∃ e, FailsElsewhere { quietSession with store := foreignStore } purchaseAbove e) ∧
      ¬ Outcome.Agrees (evaluate quietSession purchaseAbove).value
        (evaluate { quietSession with store := foreignStore } purchaseAbove).value := by
  have fails : ∃ e, FailsElsewhere { quietSession with store := foreignStore } purchaseAbove e := by
    obtain ⟨e, ended⟩ := evaluate_foreignStore
    rcases value_evaluate_cases plain_eventTypes (Facts.own_congr sameSession_foreignStore)
      purchaseAbove with ⟨e', fails⟩ | fails | equal
    · have conflict := evaluate_quietSession.symm.trans fails.1
      cases conflict
    · exact fails
    · rw [evaluate_quietSession, ended] at equal
      cases equal
  refine ⟨plain_eventTypes, sameSession_foreignStore, fails, fun agrees => ?_⟩
  obtain ⟨e, isError⟩ := fails
  obtain ⟨e', ended⟩ :=
    ((agrees_iff plain_eventTypes sameSession_foreignStore purchaseAbove).1 agrees).2 e isError
  rw [evaluate_quietSession] at ended
  cases ended

end Clickstream
