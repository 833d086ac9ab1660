import Clickstream.Time.Instant
import Clickstream.Text

/-! # Reading instants

Two notations for a date, a time and an offset from UTC. The strict one is RFC 3339, with `T`, `t`
or a space before the time; the relaxed one, for the time stamps of entities, also takes short
numbers, white space between the parts, years with a sign, and `UTC` for the offset. In both the
digits of a fraction after the ninth are dropped, second 60 is a leap second, and the minus of an
offset may be the mathematical sign.
-/

namespace Clickstream.Time

/-- A number of between `least` and `most` digits, and what follows it. -/
def digits? (least most : Nat) (cs : List Char) : Option (Nat × List Char) :=
  let ds := (cs.take most).takeWhile Char.isDigit
  if ds.length < least then none
  else some (ds.foldl (fun n c => 10 * n + (c.toNat - '0'.toNat)) 0, cs.drop ds.length)

def char? (c : Char) : List Char → Option (List Char)
  | head :: rest => if head = c then some rest else none
  | [] => none

def skipBlank (cs : List Char) : List Char := cs.dropWhile Text.isBlank

/-- The character between a date and a time. -/
def separator? : List Char → Option (List Char)
  | c :: rest => if c = 'T' ∨ c = 't' ∨ c = ' ' then some rest else none
  | [] => none

/-- The nanoseconds after a point, if there is one. -/
def fraction? : List Char → Option (Nat × List Char)
  | '.' :: rest => do
    let (n, after) ← digits? 1 9 rest
    let count := rest.length - after.length
    return (n * Nat.pow 10 (9 - count), after.dropWhile Char.isDigit)
  | cs => some (0, cs)

/-- An offset in seconds, with a rule for what stands between its hours and minutes. -/
def offset? (between : List Char → Option (List Char)) (cs : List Char) :
    Option (Int × List Char) :=
  match cs with
  | c :: rest =>
    if c = 'Z' ∨ c = 'z' then some (0, rest)
    else if c = '+' ∨ c = '-' ∨ c = '\u2212' then do
      let (hours, rest) ← digits? 2 2 rest
      let (minutes, rest) ← digits? 2 2 (← between rest)
      if minutes > 59 then none
      let seconds : Int := hours * 3600 + minutes * 60
      return (if c = '+' then seconds else -seconds, rest)
    else none
  | [] => none

/-- The parts of a date and time before they are checked. -/
structure Parts where
  date : Date
  hour : Nat
  minute : Nat
  second : Nat
  /-- The fraction of the second. -/
  nanos : Nat
  /-- Seconds east of UTC. -/
  offset : Int

/-- The instant of parts that the calendar and the clock have. -/
def Parts.instant? (p : Parts) : Option Instant :=
  if p.date.exists ∧ -262143 ≤ p.date.year ∧ p.date.year ≤ 262142 ∧ p.hour ≤ 23 ∧ p.minute ≤ 59
      ∧ p.second ≤ 60 then
    let second := if p.second = 60 then 59 else p.second
    let nanos := if p.second = 60 then p.nanos + 1000000000 else p.nanos
    let clock := p.date.toDays * 86400 + (p.hour * 3600 + p.minute * 60 + second : Nat)
    let t : Instant := ⟨clock - p.offset, nanos⟩
    if t.inRange then some t else none
  else none

/-- An instant in the strict notation. -/
def strict? (text : String) : Option Instant := do
  let (year, cs) ← digits? 4 4 text.toList
  let (month, cs) ← digits? 2 2 (← char? '-' cs)
  let (day, cs) ← digits? 2 2 (← char? '-' cs)
  let (hour, cs) ← digits? 2 2 (← separator? cs)
  let (minute, cs) ← digits? 2 2 (← char? ':' cs)
  let (second, cs) ← digits? 2 2 (← char? ':' cs)
  let (nanos, cs) ← fraction? cs
  let (offset, cs) ← offset? (char? ':') cs
  if !cs.isEmpty ∨ offset.natAbs ≥ 86400 then none
  Parts.instant? ⟨⟨year, month, day⟩, hour, minute, second, nanos, offset⟩

/-- A year: up to four digits, or a sign and any number of digits that fits 64 bits. -/
def signedYear? : List Char → Option (Int × List Char)
  | '-' :: rest => (digits? 1 rest.length rest).bind fun (n, rest) =>
    if n < Nat.pow 2 63 then some (-(n : Int), rest) else none
  | '+' :: rest => (digits? 1 rest.length rest).bind fun (n, rest) =>
    if n < Nat.pow 2 63 then some ((n : Int), rest) else none
  | cs => (digits? 1 4 cs).map fun (n, rest) => ((n : Int), rest)

/-- The offset of the relaxed notation, `UTC` in any case among it. -/
def relaxedOffset? (cs : List Char) : Option (Int × List Char) :=
  if (cs.take 3).map Char.toLower = ['u', 't', 'c'] then some (0, cs.drop 3)
  else offset? (fun cs => some (cs.dropWhile fun c => c = ':' ∨ Text.isBlank c)) cs

/-- An instant in the relaxed notation. -/
def relaxed? (text : String) : Option Instant := do
  let part (cs : List Char) := digits? 1 2 (skipBlank cs)
  let (year, cs) ← signedYear? (skipBlank text.toList)
  let (month, cs) ← part (← char? '-' (skipBlank cs))
  let (day, cs) ← part (← char? '-' (skipBlank cs))
  let (hour, cs) ← part (← separator? cs)
  let (minute, cs) ← part (← char? ':' (skipBlank cs))
  let (second, cs) ← part (← char? ':' (skipBlank cs))
  let (nanos, cs) ← fraction? cs
  let (offset, cs) ← relaxedOffset? (skipBlank cs)
  if !(skipBlank cs).isEmpty ∨ offset.natAbs ≥ 86400 then none
  Parts.instant? ⟨⟨year, month, day⟩, hour, minute, second, nanos, offset⟩

end Clickstream.Time
