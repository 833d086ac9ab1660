import Clickstream.Store.Query
import Clickstream.Registry

/-! # Evaluating conditions

Whether a profile in a session satisfies a condition. The category of its type decides what the
condition is held against: the events of the session, the profile, the session itself, or its own
sub-conditions. A condition that cannot be interpreted is reported and satisfied by nobody; an error
of the store is passed on, for it says nothing about the condition.
-/

namespace Clickstream

/-- What conditions are held against. -/
structure Facts where
  registry : Registry
  store : Store
  /-- How the store names predicates. -/
  names : EvaluatorNames
  profile : Item
  session : Item

/-- Why a condition cannot be interpreted. -/
inductive Uninterpretable where
  /-- The document is no condition. -/
  | notADocument
  /-- A type is not registered. -/
  | unknownType (e : UnknownConditionType)
  | malformed (cause : MalformedCondition)
  /-- An operator that is none. -/
  | unknownOperator (word : String)
  /-- A bound that is no count. -/
  | notACount (parameter : String) (value : Json)

def Uninterpretable.message : Uninterpretable → String
  | notADocument => "condition is not valid JSON: " ++ Document.misfit
  | unknownType e => e.message
  | malformed cause => cause.message
  | unknownOperator word => "unknown boolean operator '" ++ word ++ "'"
  | notACount parameter value =>
    "parameter '" ++ parameter ++ "' is not a count: " ++ value.compact

namespace Evaluation

/-- A condition that nobody satisfies because it cannot be interpreted. -/
def noMatch (c : Condition) (cause : Uninterpretable) : Logged Outcome := do
  .write (.warning ("cannot evaluate condition '" ++ c.typeId ++ "', treating as no match: "
    ++ cause.message))
  return .ok false

/-- A bound on the number of events: missing or blank it is the default. -/
def countParameter (c : Condition) (name : String) (default : Nat) :
    Except Uninterpretable Nat :=
  match c.parameter? name with
  | none => .ok default
  | some .null => .ok default
  | some (.string s) =>
    let cs := Text.trimmed s.toList
    if cs.isEmpty then .ok default
    else match Decimal.count? cs with
      | some n => .ok n
      | none => .error (.notACount name (.string s))
  | some value =>
    match value.nat? with
    | some n => .ok n
    | none => .error (.notACount name value)

def countLimit : Nat := Nat.pow 2 64 - 1

/-- The least and the greatest number of events. -/
def bounds (c : Condition) : Except Uninterpretable (Nat × Nat) := do
  return (← countParameter c "minimumEventCount" 0,
    ← countParameter c "maximumEventCount" countLimit)

/-- Satisfied by the events of a session. -/
def inSession (sessionId : String) : Condition :=
  ({ typeId := "propertyCondition" } : Condition)
    |>.withParameter "propertyName" (.string "sessionId")
    |>.withParameter "comparisonOperator" (.string "equals")
    |>.withParameter "propertyValue" (.string sessionId)

/-- Satisfied by the events of a session that satisfy a condition. -/
def inSessionSatisfying (sessionId : String) (event : Condition) : Condition :=
  ({ typeId := "andCondition" } : Condition).withConditions "subConditions"
    [event, inSession sessionId]

/-- The condition on events that a condition holds; without one it is satisfied by every event. -/
def eventCondition (c : Condition) : Except MalformedCondition Condition :=
  (c.condition? "eventCondition").map (·.getD { typeId := "matchAllCondition" })

/-- Events that satisfy a condition, by time. -/
def events (facts : Facts) (c : Condition) : Except StoreError (List Item) :=
  facts.store.query facts.names c (some "timeStamp") "event"

/-- Whether an event has the type of another. -/
def sameEventType (a b : Item) : Bool :=
  match a.field? "eventType", b.field? "eventType" with
  | some x, some y => x.same y
  | none, none => true
  | _, _ => false

/-- Whether the last matching event is also the last of its type in the session. -/
def lastOccurs (facts : Facts) (matching : List Item) : Outcome :=
  match matching.getLast? with
  | none => .ok false
  | some last => do
    let all ← events facts (inSession facts.session.id)
    return match all.reverse.find? (sameEventType · last) with
      | some latest => latest.id == last.id
      | none => false

/-- Hold a condition against the events of the session. -/
def matchEvents (facts : Facts) (c : Condition) : Logged Outcome :=
  match eventCondition c with
  | .error cause => noMatch c (.malformed cause)
  | .ok event =>
    match events facts (inSessionSatisfying facts.session.id event) with
    | .error e => pure (.error e)
    | .ok matching =>
      if c.string? "eventOccurIn" = some "last" then pure (lastOccurs facts matching)
      else match bounds c with
        | .error cause => noMatch c cause
        | .ok (least, most) =>
          pure (.ok (least ≤ matching.length ∧ matching.length ≤ most))

/-- The outcome that ends a combination: false if all are asked for, true if one is. -/
def decisive : BooleanOperator → Bool
  | .and => false
  | .or => true

/-- Combine outcomes; the first that decides, or an error, ends it. -/
def combine (operator : BooleanOperator) (evaluate : α → Logged Outcome) :
    List α → Logged Outcome
  | [] => pure (.ok !(decisive operator))
  | c :: rest => do
    match ← evaluate c with
    | .error e => return .error e
    | .ok b => if b = decisive operator then return .ok b else combine operator evaluate rest

/-- How a logical condition combines its sub-conditions: as a parameter says, else as its type
says, else all of them. -/
def operator (c : Condition) (type : ConditionType) : Except Uninterpretable BooleanOperator :=
  match c.string? "operator" with
  | none => .ok (type.operator.getD .and)
  | some word =>
    match BooleanOperator.parse? word with
    | some operator => .ok operator
    | none => .error (.unknownOperator word)

/-- Whether the facts satisfy a condition. -/
def evaluate (facts : Facts) (c : Condition) : Logged Outcome :=
  match c.resolve facts.registry with
  | .error e => noMatch c (.unknownType e)
  | .ok resolved =>
    let classified := resolved.resolved.getD default
    match classified.category with
    | .event => matchEvents facts resolved
    | .profile => pure (Store.testMatch facts.names resolved facts.profile)
    | .session => pure (Store.testMatch facts.names resolved facts.session)
    | .logical =>
      match operator c classified.type with
      | .error cause => noMatch c cause
      | .ok operator =>
        match _read : c.subConditions with
        | .error cause => noMatch c (.malformed cause)
        | .ok subs => combine operator (fun ⟨sub, _⟩ => evaluate facts sub) subs.attach
    | .unclassified => do
      .write (.warning ("condition type '" ++ c.typeId
        ++ "' has no evaluation category, treating as no match"))
      return .ok false
termination_by sizeOf c.parameters
decreasing_by exact Condition.sizeOf_lt_of_mem_conditions _read (by assumption)

/-- Whether the facts satisfy the condition of a JSON text. -/
def evaluateText (facts : Facts) (text : String) : Logged Outcome :=
  match (Json.read? text).bind Condition.ofDocument? with
  | some c => evaluate facts c
  | none => do
    .write (.warning ("cannot evaluate condition document: "
      ++ Uninterpretable.notADocument.message))
    return .ok false

end Evaluation

end Clickstream
