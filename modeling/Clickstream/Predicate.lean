import Clickstream.Comparison
import Clickstream.Entity

/-! # Predicates

What a condition says about one item. A condition is carried out by a named predicate: the one of
its resolved type, else the one that the registry names for its type, else the one of its own name.
Sub-conditions are all read before the first is tried, and trying stops as soon as the outcome is
known, so an error behind that point stays hidden.
-/

namespace Clickstream

/-- The predicate of each registered condition type. -/
abbrev EvaluatorNames := String → Option String

namespace Condition

/-- The predicate that carries the condition out. -/
def evaluator (names : EvaluatorNames) (c : Condition) : String :=
  match c.resolved with
  | some classified => classified.type.evaluator
  | none => (names c.typeId).getD c.typeId

end Condition

/-- An outcome of a predicate. -/
abbrev Outcome := Except StoreError Bool

namespace Predicate

/-- The condition cannot be interpreted. -/
def invalid (c : Condition) (cause : InvalidCondition) : Except StoreError α :=
  .error (.invalidCondition c.typeId cause)

/-- A text parameter that has to be there. -/
def required (c : Condition) (name : String) : Except StoreError String :=
  match c.string? name with
  | some text => .ok text
  | none => invalid c (.missingParameter name)

/-- Whether there is a value other than null. -/
def isPresent (value : Option Json) : Bool :=
  match value with
  | none => false
  | some value => !value.isNull

/-- The texts of a list, or a single text. -/
def texts : Option Json → List String
  | some (.array items) => items.filterMap Json.string?
  | some (.string s) => [s]
  | _ => []

/-- Whether the item is an event of the given kind. -/
def eventType (c : Condition) (item : Item) : Outcome := do
  let expected ← required c "eventTypeId"
  return (item.field? "eventType").bind Json.string? == some expected

/-- Whether the item is in one of the given segments. -/
def profileSegment (c : Condition) (item : Item) : Bool :=
  let wanted := texts (c.parameter? "segments")
  match item.field? "segments" with
  | some (.array segments) => (segments.filterMap Json.string?).any wanted.contains
  | _ => false

/-- Whether a property that stamps the progress of a goal is there. -/
def stamped (item : Item) (step : String) (goalId : String) : Bool :=
  isPresent (item.field? ("properties." ++ goalId ++ "." ++ step ++ ".reached"))

/-- Whether the item has entered the funnel of a goal, or also reached its end. -/
def goalMatch (c : Condition) (item : Item) : Outcome := do
  let goalId ← required c "goalId"
  let reached := match c.parameter? "goalReached" with
    | some (.bool b) => b
    | some (.string s) => sameIgnoringCase s "true"
    | _ => false
  return stamped item "start" goalId && (!reached || stamped item "target" goalId)

/-- The value to compare with. -/
def expected? (c : Condition) : Option Json :=
  ["propertyValue", "propertyValueInteger", "propertyValueDate"].findSome? fun name =>
    (c.parameter? name).filter fun value => !value.isNull

/-- The values to compare with. -/
def values (c : Condition) : List Json :=
  match c.parameter? "propertyValues" with
  | some (.array values) => values
  | _ => []

/-- The values of a property: the elements of a list, or the one value. -/
def candidates : Json → List Json
  | .array items => items
  | value => [value]

/-- Whether one text occurs in another. -/
def occursIn (needle : List Char) : List Char → Bool
  | [] => needle.isEmpty
  | c :: rest => needle.isPrefixOf (c :: rest) || occursIn needle rest

/-- The text of a value for comparing texts. -/
def valueText : Json → String
  | .string s => s
  | value => value.compact

/-- Compare texts, or find a value in a list. -/
def textual (test : List Char → List Char → Bool) (actual expected : Json) : Bool :=
  match actual with
  | .array items => items.any (·.looselyEqual expected)
  | value => test (valueText expected).toList (valueText value).toList

/-- Whether the order of two values passes a test. -/
def ordered (test : Ordering → Bool) (a b : Json) : Bool :=
  match a.compare? b with
  | some order => test order
  | none => false

/-- Test the value to compare with, which has to be there. -/
def against (c : Condition) (operator : String) (test : Json → Bool) : Outcome :=
  match expected? c with
  | some expected => .ok (test expected)
  | none => invalid c (.missingValue operator)

/-- Compare a value that is there; of a list it is enough that one element fits. -/
def comparePresent (c : Condition) (operator : String) (actual : Json) : Outcome :=
  let found := candidates actual
  let compared (test : Ordering → Bool) : Outcome :=
    against c operator fun expected => found.any fun a => ordered test a expected
  match operator with
  | "equals" => against c operator fun expected => found.any (·.looselyEqual expected)
  | "notEquals" => against c operator fun expected => !found.any (·.looselyEqual expected)
  | "greaterThan" => compared (· == .gt)
  | "greaterThanOrEqualTo" => compared (· != .lt)
  | "lessThan" => compared (· == .lt)
  | "lessThanOrEqualTo" => compared (· != .gt)
  | "between" =>
    match values c with
    | [low, high] =>
      .ok (found.any fun a => ordered (· != .lt) a low && ordered (· != .gt) a high)
    | _ => invalid c .missingRange
  | "contains" => against c operator (textual occursIn actual)
  | "startsWith" => against c operator (textual List.isPrefixOf actual)
  | "endsWith" => against c operator (textual List.isSuffixOf actual)
  | "in" => .ok (found.any fun a => (values c).any a.looselyEqual)
  | "notIn" => .ok (!found.any fun a => (values c).any a.looselyEqual)
  | operator => invalid c (.unknownComparison operator)

/-- Compare a property of the item. A property that is absent or null fails every comparison but
`missing`; an absent one passes the two negated ones. -/
def property (c : Condition) (item : Item) : Outcome := do
  let name ← required c "propertyName"
  let operator := (c.string? "comparisonOperator").getD "equals"
  match operator, item.value? name with
  | "exists", actual => return isPresent actual
  | "missing", actual => return !isPresent actual
  | "notEquals", none => return true
  | "notIn", none => return true
  | _, none => return false
  | _, some .null => return false
  | _, some actual => comparePresent c operator actual

inductive Kind where
  /-- Holds of everything. -/
  | matchAll
  /-- Combines sub-conditions in one way. -/
  | combination (operator : BooleanOperator)
  /-- Combines sub-conditions as a parameter says. -/
  | boolean
  | negation
  | property
  /-- Asks for a kind of event. -/
  | eventType
  | profileSegment
  /-- Asks for progress towards a goal. -/
  | goalMatch
  deriving DecidableEq

/-- The predicate of a name. -/
def Kind.ofName? : String → Option Kind
  | "matchAllCondition" => some matchAll
  | "andCondition" => some (combination .and)
  | "orCondition" => some (combination .or)
  | "booleanCondition" => some boolean
  | "notCondition" => some negation
  | "propertyCondition" => some property
  | "profilePropertyCondition" => some property
  | "sessionPropertyCondition" => some property
  | "eventPropertyCondition" => some property
  | "eventTypeCondition" => some eventType
  | "profileSegmentCondition" => some profileSegment
  | "goalMatchCondition" => some goalMatch
  | _ => none

/-- How a condition combines its sub-conditions if a parameter says so. -/
def booleanOperator (c : Condition) : Except StoreError BooleanOperator :=
  let word := (c.string? "operator").getD "and"
  match BooleanOperator.parse? word with
  | some operator => .ok operator
  | none => invalid c (.unknownOperator word)

/-- Whether all or one of some outcomes are true; the first that decides, or an error, ends it. -/
def combine (operator : BooleanOperator) (outcome : α → Outcome) (conditions : List α) : Outcome :=
  match operator with
  | .and => conditions.allM outcome
  | .or => conditions.anyM outcome

/-- Whether an item satisfies a condition. -/
def outcome (names : EvaluatorNames) (item : Item) (c : Condition) : Outcome :=
  let combined (operator : BooleanOperator) : Outcome :=
    match _read : c.subConditions with
    | .error cause => invalid c (.malformed cause)
    | .ok subs => combine operator (fun ⟨sub, _⟩ => outcome names item sub) subs.attach
  match Kind.ofName? (c.evaluator names) with
  | none => .error (.unsupportedCondition (c.evaluator names))
  | some .matchAll => .ok true
  | some (.combination operator) => combined operator
  | some .boolean =>
    match booleanOperator c with
    | .error e => .error e
    | .ok operator => combined operator
  | some .negation =>
    match _read : c.conditions "subCondition" with
    | .error cause => invalid c (.malformed cause)
    | .ok [] => invalid c .missingSubCondition
    | .ok (sub :: _) => (outcome names item sub).map (!·)
  | some .property => property c item
  | some .eventType => eventType c item
  | some .profileSegment => .ok (profileSegment c item)
  | some .goalMatch => goalMatch c item
termination_by sizeOf c.parameters
decreasing_by
  · exact Condition.sizeOf_lt_of_mem_conditions _read (by assumption)
  · exact Condition.sizeOf_lt_of_mem_conditions _read List.mem_cons_self

end Predicate

end Clickstream
