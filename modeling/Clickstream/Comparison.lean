import Clickstream.Json
import Clickstream.Decimal.Numeral
import Clickstream.Time.Reader

/-! # Comparing field values

Loose equality and a partial order of the values that conditions compare. A number equals a text
that denotes it; texts compare as instants if both are, else as numbers if both are, else by code
point; truth values compare among themselves; all else is incomparable.
-/

namespace Clickstream

namespace Number

/-- The number as a double. -/
def toDouble : Number → Float
  | integer n => Decimal.ofInt n
  | double x => x

end Number

/-- Whether two texts are equal apart from the case of ASCII letters. -/
def sameIgnoringCase (a b : String) : Bool := a.map Char.toLower == b.map Char.toLower

/-- The order of two doubles; a NaN has none. -/
def compareDoubles (x y : Float) : Option Ordering :=
  if x < y then some .lt
  else if y < x then some .gt
  else if x == y then some .eq
  else none

/-- The order of two texts, code point by code point. -/
def compareTexts (a b : String) : Ordering :=
  if a < b then .lt else if a = b then .eq else .gt

namespace Json

/-- The instant that a value denotes: a text in strict notation, or whole milliseconds. -/
def instant? : Json → Option Time.Instant
  | string s => Time.strict? s
  | number (.integer n) => if n < Int.ofNat (Nat.pow 2 63) then Time.Instant.ofMillis? n else none
  | _ => none

/-- The number that a value denotes. -/
def number? : Json → Option Float
  | number n => some n.toDouble
  | string s => Decimal.number? s
  | _ => none

/-- Whether the value is a number. -/
def isNumber : Json → Bool
  | number _ => true
  | _ => false

/-- Whether two values are equal as numbers. -/
def numbersEqual (a b : Json) : Bool :=
  match a.number?, b.number? with
  | some x, some y => x == y
  | _, _ => false

/-- Whether a text is the word for a truth value. -/
def saysTruth (b : Bool) (s : String) : Bool := sameIgnoringCase s (if b then "true" else "false")

/-- Loose equality of field values. -/
def looselyEqual (a b : Json) : Bool :=
  a.same b ||
    if a.isNumber || b.isNumber then a.numbersEqual b
    else match a, b with
      | bool x, string s => saysTruth x s
      | string s, bool x => saysTruth x s
      | _, _ => false

/-- The order of two values as numbers. -/
def compareNumbers (a b : Json) : Option Ordering :=
  match a.number?, b.number? with
  | some x, some y => compareDoubles x y
  | _, _ => none

/-- The order of two texts as field values. -/
def compareStrings (a b : String) : Option Ordering :=
  match Time.strict? a, Time.strict? b with
  | some s, some t => some (s.order t)
  | _, _ =>
    match Decimal.number? a, Decimal.number? b with
    | some x, some y => compareDoubles x y
    | _, _ => some (compareTexts a b)

/-- The order of two field values, if they have one. -/
def compare? (a b : Json) : Option Ordering :=
  match a, b with
  | string x, string y => compareStrings x y
  | bool x, bool y => some (compare x.toNat y.toNat)
  | _, _ => compareNumbers a b

end Json

end Clickstream
