import Clickstream.Store.Query

/-! # Funnel reports

How many sessions entered the funnel of a goal and how many reached its end, in total and bucket by
bucket. The buckets are those of the sessions that entered, in the order of the store; rates are
quotients of doubles, so a bucket that nobody entered has a rate that is no number.
-/

namespace Clickstream

/-- The figures of a bucket or of all sessions. -/
structure Stat where
  /-- The bucket; none for all sessions. -/
  key : Option String := none
  startCount : Nat
  /-- The sessions that reached the end. -/
  targetCount : Nat
  /-- The part of those that entered which reached the end. -/
  conversionRate : Float
  /-- The part of all that reached the end which is in the bucket; 0 for all sessions. -/
  percentage : Float := 0.0

structure GoalReport where
  globalStats : Stat
  split : List (String × Stat)

/-- The quotient of two counts. -/
def ratio (a b : Nat) : Float := Decimal.ofInt a / Decimal.ofInt b

/-- The total among bucket counts and the other counts; without an entry for the total, their
sum. -/
def takeTotal (counts : BucketCounts) : Nat × BucketCounts :=
  match counts.find? (·.1 = filteredKey) with
  | some (_, total) => (total, counts.eraseP (·.1 = filteredKey))
  | none => ((counts.map (·.2)).foldr (· + ·) 0, counts)

namespace GoalReport

/-- The report of the counts of sessions that entered and of those that reached the end. -/
def ofCounts (start target : BucketCounts) : GoalReport :=
  let (startTotal, start) := takeTotal start
  let (targetTotal, target) := takeTotal target
  let reached := Table.ofList target
  { globalStats :=
      { startCount := startTotal
        targetCount := targetTotal
        conversionRate := ratio targetTotal startTotal }
    split := start.map fun (key, startCount) =>
      let targetCount := (reached.get? key).getD 0
      (key,
        { key := some key
          startCount
          targetCount
          conversionRate := ratio targetCount startCount
          percentage := ratio targetCount targetTotal }) }

/-- The figures of a bucket. -/
def bucket? (report : GoalReport) (key : String) : Option Stat :=
  (report.split.find? (·.1 = key)).map (·.2)

end GoalReport

namespace Stat

def toJson (s : Stat) : Json :=
  .object <| Json.optionalField "key" (s.key.map .string)
    ++ [("startCount", Json.ofNat s.startCount), ("targetCount", Json.ofNat s.targetCount),
      ("conversionRate", .number (.double s.conversionRate)),
      ("percentage", .number (.double s.percentage))]

end Stat

def GoalReport.toJson (r : GoalReport) : Json :=
  .object [("globalStats", r.globalStats.toJson),
    ("split", .object (r.split.map fun (key, stat) => (key, stat.toJson)))]

end Clickstream
