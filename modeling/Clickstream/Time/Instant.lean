import Clickstream.Time.Calendar
import Clickstream.Decimal.Double

/-! # Instants

Points of UTC time to the nanosecond. A leap second is the second before it with a fraction of one
second and more, so it sorts after that second and before the next one.
-/

namespace Clickstream.Time

/-- A point of UTC time. -/
structure Instant where
  /-- Seconds from 1970-01-01T00:00:00Z. -/
  seconds : Int
  /-- Below one second, or from one to two in a leap second. -/
  nanos : Nat
  deriving DecidableEq, Inhabited

namespace Instant

/-- Whether one instant is earlier than another. -/
def before (a b : Instant) : Bool :=
  a.seconds < b.seconds ∨ (a.seconds = b.seconds ∧ a.nanos < b.nanos)

/-- Which of two instants is earlier. -/
def order (a b : Instant) : Ordering :=
  if a.before b then .lt else if b.before a then .gt else .eq

/-- The years that an instant may lie in. -/
def inRange (t : Instant) : Bool :=
  (Date.toDays ⟨-262143, 1, 1⟩) * 86400 ≤ t.seconds ∧
    t.seconds < (Date.toDays ⟨262143, 1, 1⟩) * 86400

/-- The instant a number of milliseconds after 1970-01-01T00:00:00Z. -/
def ofMillis? (millis : Int) : Option Instant :=
  let t : Instant := ⟨millis / 1000, (millis % 1000).toNat * 1000000⟩
  if t.inRange then some t else none

/-- The date in UTC. -/
def date (t : Instant) : Date := Date.ofDays (t.seconds / 86400)

/-- The second of the day in UTC. -/
def secondOfDay (t : Instant) : Nat := (t.seconds % 86400).toNat

end Instant

/-- A number with a width that counts its sign. -/
def padded (width : Nat) (n : Int) : String :=
  if n < 0 then "-" ++ Decimal.zeroPad (width - 1) (toString n.natAbs)
  else Decimal.zeroPad width (toString n)

/-- A year as a date writes it: four digits, with a sign before and after the years 0 to 9999. -/
def yearText (year : Int) : String :=
  if 0 ≤ year ∧ year ≤ 9999 then padded 4 year
  else (if year < 0 then "-" else "+") ++ Decimal.zeroPad 4 (toString year.natAbs)

def Date.text (d : Date) : String :=
  yearText d.year ++ "-" ++ padded 2 d.month ++ "-" ++ padded 2 d.day

/-- A fraction of a second in the fewest of 0, 3, 6 and 9 digits that lose nothing. -/
def fractionText (nanos : Nat) : String :=
  if nanos = 0 then ""
  else if nanos % 1000000 = 0 then "." ++ padded 3 (nanos / 1000000 : Nat)
  else if nanos % 1000 = 0 then "." ++ padded 6 (nanos / 1000 : Nat)
  else "." ++ padded 9 nanos

/-- An instant as text in UTC. -/
def Instant.text (t : Instant) : String :=
  let s := t.secondOfDay
  let leap := t.nanos ≥ 1000000000
  let second := if leap then s % 60 + 1 else s % 60
  let nanos := if leap then t.nanos - 1000000000 else t.nanos
  t.date.text ++ "T" ++ padded 2 (s / 3600 : Nat) ++ ":" ++ padded 2 (s / 60 % 60 : Nat) ++ ":"
    ++ padded 2 second ++ fractionText nanos ++ "Z"

end Clickstream.Time
