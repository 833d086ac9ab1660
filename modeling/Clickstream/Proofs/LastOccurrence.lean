import Clickstream.Proofs.Sorting
import Clickstream.Proofs.StoredEvents
import Clickstream.Proofs.TimeTexts

/-! # The last event of its type

A condition can ask that the last event that satisfies it be the last of its type in the session. The
answer compares the ends of two lists that the store finds and sorts apart from each other. Both are
in one order, that of the time stamps and then of the ids: time stamps are sorted as texts, but those
of the years 0 to 9999 read back as what they were.
-/

namespace Clickstream

/-! ## Ends of ordered lists -/

section

variable {α : Type} {r : α → α → Prop} {p : α → Bool} {l : List α} {x : α}

theorem rel_of_getLast? (ordered : l.Pairwise r) (h : l.getLast? = some x) :
    ∀ y ∈ l, y = x ∨ r y x := by
  obtain ⟨before, rfl⟩ := List.getLast?_eq_some_iff.1 h
  obtain ⟨-, -, earlier⟩ := List.pairwise_append.1 ordered
  intro y member
  rcases List.mem_append.1 member with member | last
  · exact .inr (earlier y member x (List.mem_singleton_self x))
  · exact .inl (List.mem_singleton.1 last)

/-- The last of the elements that pass a test comes after all others that do. -/
theorem rel_of_find?_reverse (ordered : l.Pairwise r) (h : l.reverse.find? p = some x) :
    ∀ y ∈ l, p y = true → y = x ∨ r y x := by
  obtain ⟨-, after, before, cut, fail⟩ := List.find?_eq_some_iff_append.1 h
  have whole : l = before.reverse ++ x :: after.reverse := by
    rw [← List.reverse_reverse l, cut]
    simp
  rw [whole] at ordered
  obtain ⟨-, -, earlier⟩ := List.pairwise_append.1 ordered
  intro y member passes
  rw [whole] at member
  rcases List.mem_append.1 member with member | member
  · exact .inr (earlier y member x List.mem_cons_self)
  rcases List.mem_cons.1 member with same | member
  · exact .inl same
  · have fails := fail y (List.mem_reverse.1 member)
    rw [passes] at fails
    cases fails

end

/-! ## The order of events -/

namespace Event

variable {a b : Event} {events : List Event}

/-- One event comes before another, by the time stamps and then by the ids. -/
def Before (a b : Event) : Prop :=
  a.timeStamp.before b.timeStamp = true ∨ a.timeStamp = b.timeStamp ∧ a.id < b.id

instance : Decidable (a.Before b) := inferInstanceAs (Decidable (_ ∨ _))

theorem before_iff : a.Before b ↔
    toLex (a.timeStamp.place, a.id) < toLex (b.timeStamp.place, b.id) := by
  rw [Prod.Lex.toLex_lt_toLex, Before, Time.Instant.before_iff]
  constructor
  · rintro (earlier | ⟨same, less⟩)
    · exact .inl earlier
    · exact .inr ⟨congrArg Time.Instant.place same, less⟩
  · rintro (earlier | ⟨same, less⟩)
    · exact .inl earlier
    · exact .inr ⟨Time.Instant.place_inj same, less⟩

theorem Before.not_before (h : a.Before b) : ¬ b.Before a := by
  rw [before_iff] at h ⊢
  exact h.asymm

/-- Events that were read have regular time stamps. -/
theorem regular_of_ofDocument? {d : Document} (read : ofDocument? d = some a) :
    a.timeStamp.Regular := by
  simp only [ofDocument?, Option.pure_def, Option.bind_eq_bind, Option.bind_eq_some_iff] at read
  obtain ⟨record, -, read⟩ := read
  split at read
  · simp only [Option.bind_eq_some_iff, Option.some.injEq] at read
    obtain ⟨_, -, _, -, _, -, _, -, stamp, isStamp, _, -, rfl⟩ := read
    rw [Document.required.eq_def] at isStamp
    split at isStamp
    · cases isStamp
    · obtain ⟨text, -, isTime⟩ := Option.bind_eq_some_iff.1 isStamp
      exact Time.regular_of_relaxed? isTime
  · cases read

/-- Time stamps are sorted as what they were before they became texts. -/
theorem precedes_ofEntity (plain : a.timeStamp.IsPlain) (plain' : b.timeStamp.IsPlain) :
    Store.precedes "timeStamp" (Item.ofEntity a) (Item.ofEntity b) =
      a.timeStamp.before b.timeStamp := by
  have less : (Json.string a.timeStamp.text).Less (.string b.timeStamp.text) ↔
      a.timeStamp.before b.timeStamp = true := by
    simp only [Json.Less, Json.compare?, Json.compareStrings, plain.strict?_text,
      plain'.strict?_text, Option.some_inj]
    rw [Time.Instant.order_eq, compare_lt_iff_lt, Time.Instant.before_iff]
  rw [Bool.eq_iff_iff, Store.precedes_iff, ← less, value?_timeStamp, value?_timeStamp]
  simp

theorem ranks_before : Store.Ranks (fun a b : Event => a.timeStamp.before b.timeStamp) events where
  asymm a _ b _ earlier := by
    rw [Time.Instant.before_iff] at earlier
    rw [← Bool.not_eq_true, Time.Instant.before_iff]
    exact earlier.asymm
  splits a _ b _ c _ earlier := by
    simp only [Time.Instant.before_iff] at earlier ⊢
    exact (lt_or_ge a.timeStamp.place b.timeStamp.place).imp_right fun le => le.trans_lt earlier

/-- Events that were in the order of their ids are in the order of time when they are sorted. -/
theorem pairwise_sortBy (ascending : events.Pairwise fun a b => a.id < b.id) :
    (Store.sortBy (fun a b : Event => a.timeStamp.before b.timeStamp) events).Pairwise Before := by
  refine (Store.pairwise_sortBy ranks_before ascending).imp fun {a b} ahead => ?_
  obtain ⟨notBack, place⟩ := ahead
  by_cases earlier : a.timeStamp.before b.timeStamp = true
  · exact .inl earlier
  · refine .inr ⟨Time.Instant.place_inj ?_, place (Bool.eq_false_iff.2 earlier)⟩
    rw [← Bool.not_eq_true, Time.Instant.before_iff] at notBack
    rw [Time.Instant.before_iff] at earlier
    exact le_antisymm (not_lt.1 notBack) (not_lt.1 earlier)

/-- Events in the order of their time stamps, those of one time in the order that they came in. -/
def byTime (events : List Event) : List Event :=
  Store.sortBy (fun a b => a.timeStamp.before b.timeStamp) events

theorem sortBy_ofEntity (plain : ∀ e ∈ events, e.timeStamp.IsPlain) :
    Store.sortBy (Store.precedes "timeStamp") (events.map Item.ofEntity) =
      (byTime events).map Item.ofEntity :=
  Store.sortBy_map fun a inA b inB => precedes_ofEntity (plain a inA) (plain b inB)

theorem mem_byTime : a ∈ byTime events ↔ a ∈ events := Store.mem_sortBy

end Event

/-! ## The last occurrence -/

namespace Evaluation

variable {facts : Facts} {c : Condition} {stored : List Event} {satisfies : Event → Bool}

theorem sameEventType_ofEntity {a b : Event} :
    sameEventType (Item.ofEntity a) (Item.ofEntity b) = (a.eventType == b.eventType) := by
  rw [sameEventType, Event.field?_eventType, Event.field?_eventType]
  rfl

/-- An event is the last of its type in a session. -/
def IsLatest (sessionId : String) (stored : List Event) (last : Event) : Prop :=
  ∀ e ∈ stored, e.sessionId = sessionId → e.eventType = last.eventType → ¬ last.Before e

/-- What is found in the session from its end is the last event of a type. -/
theorem isLatest_iff {sessionId : String} {last latest : Event}
    (ascending : stored.Pairwise fun a b => a.id < b.id) (member : last ∈ stored)
    (inSession : last.sessionId = sessionId)
    (found : (Event.byTime (stored.filter (·.sessionId == sessionId))).reverse.find?
      (·.eventType == last.eventType) = some latest) :
    IsLatest sessionId stored last ↔ latest.id = last.id := by
  have own : ∀ e, e ∈ Event.byTime (stored.filter (·.sessionId == sessionId)) ↔
      e ∈ stored ∧ e.sessionId = sessionId := by
    intro e
    rw [Event.mem_byTime, List.mem_filter, beq_iff_eq]
  have greatest := rel_of_find?_reverse (Event.pairwise_sortBy (ascending.filter _)) found
  have sameType : latest.eventType = last.eventType := by simpa using List.find?_some found
  obtain ⟨isStored, here⟩ := (own latest).1 (List.mem_reverse.1 (List.mem_of_find?_eq_some found))
  constructor
  · intro isLatest
    rcases greatest last ((own last).2 ⟨member, inSession⟩) (by simp) with same | earlier
    · rw [same]
    · exact absurd earlier (isLatest latest isStored here sameType)
  · intro sameId
    have ids : (stored.map Event.id).Nodup := List.pairwise_map.2 (ascending.imp fun less => less.ne)
    obtain rfl := List.inj_on_of_nodup_map ids isStored member sameId
    intro e inside there type later
    rcases greatest e ((own e).2 ⟨inside, there⟩) (by simp [type]) with rfl | earlier
    · exact later.not_before later
    · exact later.not_before earlier

/-- Asking about an event of the session that a list of events ends with. -/
theorem lastOccurs_eq (h : AsksForEvents facts c stored satisfies)
    (plain : ∀ e ∈ stored, e.timeStamp.IsPlain) {matching : List Item} {last : Event}
    (ends : matching.getLast? = some (Item.ofEntity last)) (member : last ∈ stored)
    (inSession : last.sessionId = facts.session.id) :
    ∃ b, lastOccurs facts matching = .ok b ∧
      (b = true ↔ IsLatest facts.session.id stored last) := by
  have sameType : (fun e => sameEventType (Item.ofEntity e) (Item.ofEntity last)) =
      fun e : Event => e.eventType == last.eventType := funext fun _ => sameEventType_ofEntity
  have listed : ∀ e ∈ stored.filter (·.sessionId == facts.session.id), e.timeStamp.IsPlain :=
    fun e inside => plain e (List.mem_filter.1 inside).1
  rw [lastOccurs, ends]
  dsimp only
  rw [events_inSession h.unmoved.plain, h.own_eq, Event.sortBy_ofEntity listed]
  simp only [bind, Except.bind, ← List.map_reverse, List.find?_map, Function.comp_def, sameType]
  cases found : (Event.byTime (stored.filter (·.sessionId == facts.session.id))).reverse.find?
      (·.eventType == last.eventType) with
  | none =>
    -- The event itself is of its type.
    have none := List.find?_eq_none.1 found last
    simp [Event.mem_byTime, member, inSession] at none
  | some latest =>
    refine ⟨_, rfl, ?_⟩
    rw [isLatest_iff h.holds.ascending member inSession found]
    exact beq_iff_eq

/-- A condition that asks for the last event is satisfied exactly if events of the session satisfy the
condition on one event and of those the greatest, by time stamp and id, is the last of its type. -/
theorem value_evaluate_last (h : AsksForEvents facts c stored satisfies)
    (asksLast : c.string? "eventOccurIn" = some "last")
    (plain : ∀ e ∈ stored, e.timeStamp.IsPlain) :
    ∃ b, (evaluate facts c).value = .ok b ∧
      (b = true ↔ ∃ last ∈ found facts.session.id satisfies stored,
        (∀ e ∈ found facts.session.id satisfies stored, e = last ∨ e.Before last) ∧
        IsLatest facts.session.id stored last) := by
  have mem_found : ∀ e, e ∈ found facts.session.id satisfies stored →
      e ∈ stored ∧ e.sessionId = facts.session.id := by
    intro e member
    obtain ⟨inside, holds⟩ := List.mem_filter.1 member
    exact ⟨inside, by simpa using (Bool.and_eq_true_iff.1 holds).2⟩
  rw [h.value_evaluate_eq]
  dsimp only
  rw [if_pos asksLast, Event.sortBy_ofEntity fun e member => plain e (mem_found e member).1]
  cases ends : (Event.byTime (found facts.session.id satisfies stored)).getLast? with
  | none =>
    have empty := List.getLast?_eq_none_iff.1 ends
    refine ⟨false, by rw [empty]; rfl, ⟨fun h => (nomatch h), ?_⟩⟩
    rintro ⟨last, member, -⟩
    rw [← Event.mem_byTime, empty] at member
    cases member
  | some last =>
    have greatest := rel_of_getLast? (Event.pairwise_sortBy (h.holds.ascending.filter _)) ends
    have member := Event.mem_byTime.1 (List.mem_of_getLast? ends)
    obtain ⟨inside, here⟩ := mem_found last member
    have itemEnds : ((Event.byTime (found facts.session.id satisfies stored)).map
        Item.ofEntity).getLast? = some (Item.ofEntity last) := by
      rw [List.getLast?_map, ends]
      rfl
    obtain ⟨b, answer, isTrue⟩ := lastOccurs_eq h plain itemEnds inside here
    refine ⟨b, answer, isTrue.trans ⟨fun isLatest => ?_, ?_⟩⟩
    · exact ⟨last, member, fun e inFound => greatest e (Event.mem_byTime.2 inFound), isLatest⟩
    · rintro ⟨other, inFound, above, isLatest⟩
      -- Two events that each are the greatest are one.
      rcases greatest other (Event.mem_byTime.2 inFound) with same | earlier
      · exact same ▸ isLatest
      · rcases above last member with same | later
        · exact same ▸ isLatest
        · exact absurd later earlier.not_before

/-- Two purchases, the one with the greater id a quarter of a second before the other. -/
def twoEvents : List Event :=
  [{ id := "e1", eventType := "purchase", sessionId := "s1", profileId := "p1",
     timeStamp := ⟨1000, 500000000⟩ },
    { id := "e2", eventType := "purchase", sessionId := "s1", profileId := "p2",
      timeStamp := ⟨1000, 250000000⟩ }]

/-- The session with these events in the store. -/
def shortSession : Facts where
  registry := eventTypes
  store := { items := (twoEvents.map Item.ofEntity).foldl Store.put {} }
  names := eventTypes.evaluatorNames
  profile := Item.ofEntity { id := "p1" : Profile }
  session := Item.ofEntity { id := "s1", profileId := "p1", timeStamp := ⟨1000, 0⟩ : Session }

/-- The last event of a profile is the last of its type. -/
def lastOfProfile : Condition :=
  ({ typeId := "sessionEventCondition" } : Condition)
    |>.withCondition "eventCondition"
      { typeId := "eventPropertyCondition"
        parameters := [("propertyName", .string "profileId"), ("propertyValue", .string "p1")] }
    |>.withParameter "eventOccurIn" (.string "last")

theorem asksForEvents_lastOfProfile : AsksForEvents shortSession lastOfProfile twoEvents
    fun e => e.profileId == "p1" where
  holds := Store.holdsEvents_of_entries rfl
  unmoved := ⟨rfl, rfl, rfl⟩
  canonical := rfl
  category := ⟨_, rfl, rfl⟩
  asks := by
    refine ⟨_, .document rfl rfl, List.forall_mem_cons.2 ⟨?_, List.forall_mem_singleton.2 ?_⟩⟩
    · rw [Predicate.outcome]
      rfl
    · rw [Predicate.outcome]
      rfl

theorem isPlain_twoEvents : ∀ e ∈ twoEvents, e.timeStamp.IsPlain :=
  List.forall_mem_cons.2 ⟨⟨.inl (by decide), by decide, by decide⟩,
    List.forall_mem_singleton.2 ⟨.inl (by decide), by decide, by decide⟩⟩

theorem value_evaluate_last_lastOfProfile :
    AsksForEvents shortSession lastOfProfile twoEvents (fun e => e.profileId == "p1") ∧
      lastOfProfile.string? "eventOccurIn" = some "last" ∧
      (∀ e ∈ twoEvents, e.timeStamp.IsPlain) ∧
      (evaluate shortSession lastOfProfile).value = .ok true := by
  refine ⟨asksForEvents_lastOfProfile, rfl, isPlain_twoEvents, ?_⟩
  obtain ⟨b, ended, isTrue⟩ :=
    value_evaluate_last asksForEvents_lastOfProfile rfl isPlain_twoEvents
  rw [ended, isTrue.2 ⟨_, List.mem_cons_self, ?_, ?_⟩]
  · exact List.forall_mem_singleton.2 (.inl rfl)
  · exact List.forall_mem_cons.2 ⟨fun _ _ => by decide,
      List.forall_mem_singleton.2 fun _ _ => by decide⟩

end Evaluation

end Clickstream
