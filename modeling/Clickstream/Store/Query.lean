import Clickstream.Store

/-! # Queries

The items of a type that satisfy a condition: listed by id or by a field, counted, or counted in
buckets. Sorting by a field inserts each item after all earlier ones that do not come later than
it, so equal and incomparable values keep the order of the ids. Where comparing is consistent every
stable sort gives this order. Where it is not, a sort may leave the order open or give up: then
insertion is what short lists get, and of long ones it is only one possible order.
-/

namespace Clickstream

/-- How wide the buckets of dates are. -/
inductive DateInterval where
  | day
  | month
  | year
  deriving DecidableEq, Inhabited

namespace DateInterval

def text : DateInterval → String
  | day => "day"
  | month => "month"
  | year => "year"

/-- The interval that a word names. -/
def ofText? : String → Option DateInterval
  | "day" => some day
  | "month" => some month
  | "year" => some year
  | _ => none

/-- The bucket of an instant. -/
def bucket (interval : DateInterval) (t : Time.Instant) : String :=
  let date := t.date
  match interval with
  | day => date.text
  | month => Time.padded 4 date.year ++ "-" ++ Time.padded 2 date.month
  | year => Time.padded 4 date.year

end DateInterval

/-- How matching items are put into buckets. -/
inductive Bucketing where
  /-- By the date that a field holds. -/
  | dates (interval : DateInterval)
  /-- By the values that a field holds. -/
  | terms

abbrev BucketCounts := List (String × Nat)

/-- The bucket that counts all matching items. -/
def filteredKey : String := "_filtered"

mutual

/-- The terms of a value: texts as they are, the elements of lists, other values as JSON text. -/
def Json.terms : Json → List String
  | .null => []
  | .string s => [s]
  | .array items => termsOfItems items
  | value => [value.compact]

/-- The terms of all elements. -/
def Json.termsOfItems : List Json → List String
  | [] => []
  | item :: rest => item.terms ++ termsOfItems rest

end

namespace Store

/-- The items that satisfy a condition, the first error ending the search. -/
def satisfying (outcome : Item → Outcome) : List Item → Except StoreError (List Item)
  | [] => .ok []
  | item :: rest => do
    let holds ← outcome item
    let others ← satisfying outcome rest
    return if holds then item :: others else others

/-- The items of a type that satisfy a condition, by id. -/
def matching (store : Store) (names : EvaluatorNames) (c : Condition) (type : String) :
    Except StoreError (List Item) :=
  satisfying (fun item => Predicate.outcome names item c) (store.all type)

/-- Whether an item comes before another when sorted by a field; items without it come last. -/
def precedes (field : String) (a b : Item) : Bool :=
  match a.value? field, b.value? field with
  | some x, some y => x.compare? y = some .lt
  | some _, none => true
  | none, _ => false

/-- Insert an item into a list that runs backwards: after all it does not precede. -/
def insertBack (before : α → α → Bool) (item : α) : List α → List α
  | [] => [item]
  | last :: rest =>
    if before item last then last :: insertBack before item rest else item :: last :: rest

/-- Sort by insertion from the front, which for an inconsistent comparison settles what a sort of
long lists may leave open. -/
def sortBy (before : α → α → Bool) (items : List α) : List α :=
  (items.foldl (fun acc item => insertBack before item acc) []).reverse

/-- The items of a type that satisfy a condition, by id or by a field. -/
def query (store : Store) (names : EvaluatorNames) (c : Condition) (sort : Option String)
    (type : String) : Except StoreError (List Item) := do
  let matched ← store.matching names c type
  return match sort with
  | none => matched
  | some field => sortBy (precedes field) matched

/-- The number of items of a type that satisfy a condition. -/
def queryCount (store : Store) (names : EvaluatorNames) (c : Condition) (type : String) :
    Except StoreError Nat :=
  (store.matching names c type).map List.length

/-- The buckets that an item falls into. -/
def bucketsOf (bucketing : Bucketing) (field : String) (item : Item) : List String :=
  match item.value? field with
  | none => []
  | some value =>
    match bucketing with
    | .dates interval => (value.instant?.map interval.bucket).toList
    | .terms => value.terms

/-- Count one more in a bucket. -/
def countIn (counts : Table Nat) (key : String) : Table Nat :=
  counts.insert key ((counts.get? key).getD 0 + 1)

/-- Whether a bucket comes no later than another: the fuller first, then by key. -/
def rankedBefore (a b : String × Nat) : Bool := a.2 > b.2 ∨ (a.2 = b.2 ∧ a.1 ≤ b.1)

/-- The items of a type that satisfy a condition, counted in buckets: dates by key, terms by
descending count. The number of all of them comes last. -/
def aggregate (store : Store) (names : EvaluatorNames) (c : Condition) (bucketing : Bucketing)
    (field type : String) : Except StoreError BucketCounts := do
  let matched ← store.matching names c type
  let counts := ((matched.flatMap (bucketsOf bucketing field)).foldl countIn {}).entries
  let ranked := match bucketing with
    | .dates _ => counts
    | .terms => counts.mergeSort rankedBefore
  return ranked ++ [(filteredKey, matched.length)]

/-- Whether an item satisfies a condition. -/
def testMatch (names : EvaluatorNames) (c : Condition) (item : Item) : Outcome :=
  Predicate.outcome names item c

end Store

end Clickstream
