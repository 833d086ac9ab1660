import Clickstream.Store.Query
import Clickstream.Proofs.Outcomes

/-! # Queries

A query that succeeds lists exactly the items on which its condition holds, in the order of the
store. Its condition is often a conjunction of two that were put together for the query. Those are
stored as values and read back, and the second is only tried on items that pass the first.
-/

namespace Clickstream

namespace Predicate

variable {names : EvaluatorNames} {item : Item} {c first second : Condition}

/-- The second condition is not tried unless the first one holds. -/
theorem outcome_withConditions
    (conjunction : Kind.ofName? (c.evaluator names) = some (.combination .and)) :
    outcome names item (c.withConditions "subConditions" [first, second]) =
      match outcome names item first.kept with
      | .error e => .error e
      | .ok true => outcome names item second.kept
      | .ok false => .ok false := by
  have kind : Kind.ofName? ((c.withConditions "subConditions" [first, second]).evaluator names) =
    some (.combination .and) := conjunction
  rw [outcome_of_operator? kind rfl Condition.conditions_withConditions, List.map_cons,
    List.map_cons, List.map_nil, combine_cons, combine_cons, combine_nil]
  cases outcome names item first.kept with
  | error e => rfl
  | ok holds =>
    cases holds with
    | false => rfl
    | true =>
      cases outcome names item second.kept with
      | error e => rfl
      | ok holds => cases holds <;> rfl

end Predicate

namespace Store

theorem satisfying_ok {items : List Item} {holds : Item → Bool} :
    satisfying (fun item => .ok (holds item)) items = .ok (items.filter holds) := by
  induction items with
  | nil => rfl
  | cons item rest ih =>
    rw [satisfying, ih, List.filter_cons]
    cases holds item <;> rfl

/-- Whether an outcome is that the condition holds. -/
def holdsOf : Outcome → Bool
  | .ok holds => holds
  | .error _ => false

theorem holdsOf_iff {outcome : Outcome} : holdsOf outcome = true ↔ outcome = .ok true := by
  cases outcome with
  | error e => simp [holdsOf]
  | ok holds => simp [holdsOf]

theorem satisfying_eq_ok {outcome : Item → Outcome} {items found : List Item}
    (h : satisfying outcome items = .ok found) :
    found = items.filter fun item => holdsOf (outcome item) := by
  induction items generalizing found with
  | nil => cases h; rfl
  | cons item rest ih =>
    rw [satisfying] at h
    cases tried : outcome item with
    | error e => rw [tried] at h; cases h
    | ok holds =>
      cases others : satisfying outcome rest with
      | error e => rw [tried, others] at h; cases h
      | ok others' =>
        rw [tried, others] at h
        cases h
        rw [List.filter_cons, ← ih others, tried]
        cases holds <;> rfl

/-- If one condition implies another then its items are among those of the other. -/
theorem satisfying_sublist {narrow wide : Item → Outcome} {items few many : List Item}
    (implies : ∀ item, narrow item = .ok true → wide item = .ok true)
    (hfew : satisfying narrow items = .ok few) (hmany : satisfying wide items = .ok many) :
    few.Sublist many := by
  rw [satisfying_eq_ok hfew, satisfying_eq_ok hmany]
  refine List.monotone_filter_right items ?_
  intro item holds
  exact holdsOf_iff.2 (implies item (holdsOf_iff.1 holds))

end Store

end Clickstream
