import Mathlib.Data.List.Basic
import Clickstream.Evaluation
import Clickstream.Proofs.GoalItems

/-! # Outcomes of logical conditions

What the store makes of a condition over others. Conditions inside a condition are stored as values,
so what is tried is what these read back as. A combination follows its sub-conditions one by one up to
the one that decides or the first error, and a negation turns the outcome of its only one round.
-/

namespace Clickstream

namespace Condition

variable {c inner : Condition} {cs : List Condition} {name : String}

/-! ## Reading back what was stored -/

theorem ofValues?_toValue : ofValues? (cs.map toValue) = .ok (cs.map kept) := by
  have read : (cs.map toValue).mapM ofJson? = some (cs.map kept) := by
    induction cs with
    | nil => rfl
    | cons c cs ih => rw [List.map_cons, List.mapM_cons, ofJson?_toValue, ih]; rfl
  rw [ofValues?, read]

theorem conditions_withConditions :
    (c.withConditions name cs).conditions name = .ok (cs.map kept) := by
  have found : (c.withConditions name cs).parameter? name = some (.array (cs.map toValue)) := by
    simp only [withConditions, withParameter, parameter?, Fields.get?_insert, ↓reduceIte]
  rw [conditions, found]
  exact ofValues?_toValue

theorem condition?_withCondition :
    (c.withCondition name inner).condition? name = .ok (some inner.kept) := by
  have found : (c.withCondition name inner).parameter? name = some inner.toValue := by
    simp only [withCondition, withParameter, parameter?, Fields.get?_insert, ↓reduceIte]
  have read : ofValues? [inner.toValue] = .ok [inner.kept] := @ofValues?_toValue [inner]
  have object : inner.toValue = .object _ := Json.canonical_typed
  rw [object] at found read
  rw [condition?, conditions, found]
  simp only [read]
  rfl

end Condition

namespace Predicate

variable {names : EvaluatorNames} {item : Item} {c : Condition} {kind : Kind}
  {operator : BooleanOperator} {subs : List Condition}

/-- The operator by which a predicate combines sub-conditions. There is none if it does not combine
any, or does not understand the parameter that says how. -/
def Kind.operator? (kind : Kind) (c : Condition) : Option BooleanOperator :=
  match kind with
  | .combination operator => some operator
  | .boolean => (booleanOperator c).toOption
  | _ => none

/-- Carrying its type makes no difference to a condition whose predicate stays the same. -/
theorem outcome_resolved {resolved : Option ClassifiedType}
    (same : { c with resolved }.evaluator names = c.evaluator names) :
    outcome names item { c with resolved } = outcome names item c := by
  rw [outcome, outcome, same]
  rfl

/-! ## Combinations -/

theorem combine_nil {α : Type} {outcome : α → Outcome} :
    combine operator outcome [] = .ok !(Evaluation.decisive operator) := by
  cases operator <;> rfl

theorem combine_cons {α : Type} {outcome : α → Outcome} {sub : α} {rest : List α} :
    combine operator outcome (sub :: rest) = match outcome sub with
      | .error e => .error e
      | .ok b => if b = Evaluation.decisive operator then .ok b
        else combine operator outcome rest := by
  cases operator with
  | and | or =>
    simp only [combine, List.allM, List.anyM]
    cases outcome sub with
    | error e => rfl
    | ok b => cases b <;> rfl

/-- Of a single outcome both operators make the same. -/
theorem combine_singleton {α : Type} {outcome : α → Outcome} {sub : α} :
    combine operator outcome [sub] = outcome sub := by
  rw [combine_cons, combine_nil]
  cases outcome sub with
  | error e => rfl
  | ok b => cases b <;> cases operator <;> rfl

theorem combine_map {α β : Type} {f : α → β} {outcome : β → Outcome} {subs : List α} :
    combine operator (fun sub => outcome (f sub)) subs =
      combine operator outcome (subs.map f) := by
  induction subs with
  | nil => rw [List.map_nil, combine_nil, combine_nil]
  | cons sub rest ih => rw [List.map_cons, combine_cons, combine_cons, ih]

theorem combine_attach {outcome : Condition → Outcome} :
    combine operator (fun sub : { sub // sub ∈ subs } => outcome sub.1) subs.attach =
      combine operator outcome subs := by
  rw [combine_map, List.attach_map_subtype_val]

private theorem combined_of_read (read : c.subConditions = .ok subs) :
    (match _read : c.subConditions with
      | .error cause => invalid c (.malformed cause)
      | .ok subs => combine operator (fun ⟨sub, _⟩ => outcome names item sub) subs.attach) =
        combine operator (outcome names item) subs := by
  split
  · next cause failed => rw [read] at failed; cases failed
  · next found same =>
    cases read.symm.trans same
    exact combine_attach

theorem outcome_of_operator? (predicate : Kind.ofName? (c.evaluator names) = some kind)
    (combines : kind.operator? c = some operator) (read : c.subConditions = .ok subs) :
    outcome names item c = combine operator (outcome names item) subs := by
  rw [outcome, predicate]
  cases kind with
  | combination op =>
    cases combines
    exact combined_of_read read
  | boolean =>
    dsimp only
    cases asked : booleanOperator c with
    | error e => rw [Kind.operator?, asked] at combines; cases combines
    | ok op =>
      rw [Kind.operator?, asked] at combines
      cases combines
      exact combined_of_read read
  | matchAll | negation | property | eventType | profileSegment | goalMatch => cases combines

theorem outcome_negation (predicate : Kind.ofName? (c.evaluator names) = some .negation)
    {sub : Condition} (read : c.condition? "subCondition" = .ok (some sub)) :
    outcome names item c = (outcome names item sub).map (!·) := by
  rw [outcome, predicate]
  dsimp only
  rw [Condition.condition?] at read
  split
  · next cause failed => rw [failed] at read; cases read
  · next none => rw [none] at read; cases read
  · next first rest found => rw [found] at read; cases read; rfl

end Predicate

end Clickstream
