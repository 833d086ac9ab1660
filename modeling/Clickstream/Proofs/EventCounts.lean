import Clickstream.Proofs.CountTexts
import Clickstream.Proofs.Sorting
import Clickstream.Proofs.StoredEvents

/-! # How many events

A condition on events that does not ask for the last one is satisfied by a session with as many
events as its bounds allow. Without an upper bound there can be any number that fits 64 bits; with a
bound that is no count there can be none.
-/

namespace Clickstream.Evaluation

variable {facts : Facts} {c : Condition} {stored : List Event} {satisfies : Event → Bool}

theorem bounds_eq_ok {least most : Nat} : bounds c = .ok (least, most) ↔
    BoundIs 0 (c.parameter? "minimumEventCount") least ∧
      BoundIs (2 ^ 64 - 1) (c.parameter? "maximumEventCount") most := by
  have limit : countLimit = 2 ^ 64 - 1 := rfl
  rw [← countParameter_eq_ok, ← limit, ← countParameter_eq_ok, bounds]
  cases countParameter c "minimumEventCount" 0 with
  | error cause => exact ⟨fun h => (nomatch h), fun h => (nomatch h.1)⟩
  | ok low =>
    cases countParameter c "maximumEventCount" countLimit with
    | error cause => exact ⟨fun h => (nomatch h), fun h => (nomatch h.2)⟩
    | ok high => simp [bind, Except.bind, pure, Except.pure]

/-- A condition on the number of events is satisfied exactly if both bounds are counts and the events
of the session that satisfy the condition on one event are at least and at most that many. -/
theorem value_evaluate_count (h : AsksForEvents facts c stored satisfies)
    (anywhere : c.string? "eventOccurIn" ≠ some "last") :
    ∃ b, (evaluate facts c).value = .ok b ∧ (b = true ↔ ∃ least most,
      BoundIs 0 (c.parameter? "minimumEventCount") least ∧
      BoundIs (2 ^ 64 - 1) (c.parameter? "maximumEventCount") most ∧
      least ≤ (found facts.session.id satisfies stored).length ∧
      (found facts.session.id satisfies stored).length ≤ most) := by
  rw [h.value_evaluate_eq]
  dsimp only
  rw [if_neg anywhere, Store.perm_sortBy.length_eq, List.length_map]
  cases limits : bounds c with
  | error cause =>
    refine ⟨false, rfl, ⟨fun h => (nomatch h), ?_⟩⟩
    rintro ⟨least, most, isLeast, isMost, -⟩
    rw [bounds_eq_ok.2 ⟨isLeast, isMost⟩] at limits
    cases limits
  | ok both =>
    obtain ⟨low, high⟩ := both
    obtain ⟨isLow, isHigh⟩ := bounds_eq_ok.1 limits
    refine ⟨_, rfl, ?_⟩
    rw [decide_eq_true_iff]
    constructor
    · exact fun within => ⟨low, high, isLow, isHigh, within⟩
    · rintro ⟨least, most, isLeast, isMost, within⟩
      have same := limits.symm.trans (bounds_eq_ok.2 ⟨isLeast, isMost⟩)
      cases same
      exact within

/-- A condition type that asks for events, and one for their kind. -/
def kindTypes : Registry :=
  (eventTypes.registerConditionType { id := "eventTypeCondition" }).value

/-- Two purchases and a visit in a session, and a purchase in another one. -/
def fourEvents : List Event :=
  let visit : Session := { id := "s1", profileId := "p1", timeStamp := ⟨1000, 0⟩ }
  let other : Session := { id := "s2", profileId := "p2", timeStamp := ⟨1000, 0⟩ }
  [.inSession visit "e1" "purchase" [], .inSession visit "e2" "visit" [],
    .inSession other "e3" "purchase" [], .inSession visit "e4" "purchase" []]

/-- The session with these events in the store. -/
def busySession : Facts where
  registry := kindTypes
  store := { items := (fourEvents.map Item.ofEntity).foldl Store.put {} }
  names := kindTypes.evaluatorNames
  profile := Item.ofEntity { id := "p1" : Profile }
  session := Item.ofEntity { id := "s1", profileId := "p1", timeStamp := ⟨1000, 0⟩ : Session }

/-- At least two purchases, by a text. -/
def twoPurchases : Condition :=
  ({ typeId := "sessionEventCondition" } : Condition)
    |>.withCondition "eventCondition"
      { typeId := "eventTypeCondition", parameters := [("eventTypeId", .string "purchase")] }
    |>.withParameter "minimumEventCount" (.string " +2")

theorem asksForEvents_twoPurchases : AsksForEvents busySession twoPurchases fourEvents
    fun e => e.eventType == "purchase" where
  holds := Store.holdsEvents_of_entries rfl
  unmoved := ⟨rfl, rfl, rfl⟩
  canonical := rfl
  category := ⟨_, rfl, rfl⟩
  asks := by
    refine ⟨_, .document rfl rfl, fun e _ => ?_⟩
    rw [Predicate.outcome]
    simp only [Predicate.eventType, Predicate.required, Condition.string?, Condition.parameter?,
      Event.field?_eventType]
    rfl

theorem value_evaluate_count_twoPurchases :
    AsksForEvents busySession twoPurchases fourEvents (fun e => e.eventType == "purchase") ∧
      twoPurchases.string? "eventOccurIn" ≠ some "last" ∧
      (evaluate busySession twoPurchases).value = .ok true := by
  have anywhere : twoPurchases.string? "eventOccurIn" ≠ some "last" := by decide
  refine ⟨asksForEvents_twoPurchases, anywhere, ?_⟩
  obtain ⟨b, ended, isTrue⟩ := value_evaluate_count asksForEvents_twoPurchases anywhere
  have spelled : Decimal.Spells ['2'] 2 :=
    ⟨by decide, List.forall_mem_singleton.2 rfl, rfl, by decide⟩
  have least : BoundIs 0 (some (.string " +2")) 2 :=
    @BoundIs.text 0 " +2" [' '] ['+'] ['2'] [] 2 rfl (List.forall_mem_singleton.2 rfl)
      (List.forall_mem_nil _) (.inr rfl) spelled
  rw [ended, isTrue.2 ⟨2, 2 ^ 64 - 1, least, .missing, by decide, by decide⟩]

end Clickstream.Evaluation
