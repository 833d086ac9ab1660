import Clickstream.Decimal.Double
import Clickstream.Text

/-! # Numbers in strings

How a text counts as a number once the white space around it is gone: a decimal with an optional
sign, a point that may lack digits on one side, an optional exponent, or one of the words for
infinity and NaN in any case. A count is a run of ASCII digits, perhaps after a plus, that fits
64 bits.
-/

namespace Clickstream.Decimal

/-- The value of a run of ASCII digits. -/
def digitsValue (ds : List Char) : Nat :=
  ds.foldl (fun n c => 10 * n + (c.toNat - '0'.toNat)) 0

/-- Split off a sign; true for minus. -/
def splitSign : List Char → Bool × List Char
  | '-' :: rest => (true, rest)
  | '+' :: rest => (false, rest)
  | cs => (false, cs)

/-- The exponent after the digits of a decimal: nothing, or `e`, a sign and digits. -/
def exponent? : List Char → Option Int
  | [] => some 0
  | e :: rest =>
    if e = 'e' ∨ e = 'E' then
      let (minus, ds) := splitSign rest
      if ds.isEmpty ∨ !ds.all Char.isDigit then none
      else some (if minus then -(digitsValue ds : Int) else digitsValue ds)
    else none

/-- `digits * 10 ^ exponent`; exponents past every double are not worked out. -/
def toDouble (digits : Nat) (exponent : Int) : Float :=
  if digits = 0 then 0.0
  else
    let lead := exponent + (Nat.toDigits 10 digits).length
    if lead > 400 then Float.ofBits 0x7FF0000000000000
    else if lead < -400 then 0.0
    else scaled digits exponent

def unsigned? (cs : List Char) : Option Float :=
  let word := cs.map Char.toLower
  if word = "inf".toList ∨ word = "infinity".toList then some (Float.ofBits 0x7FF0000000000000)
  else if word = "nan".toList then some (Float.ofBits 0x7FF8000000000000)
  else
    let whole := cs.takeWhile Char.isDigit
    let (fraction, tail) := match cs.dropWhile Char.isDigit with
      | '.' :: rest => (rest.takeWhile Char.isDigit, rest.dropWhile Char.isDigit)
      | rest => ([], rest)
    if whole.isEmpty ∧ fraction.isEmpty then none
    else (exponent? tail).map fun e =>
      toDouble (digitsValue (whole ++ fraction)) (e - fraction.length)

/-- The number that a text denotes. -/
def number? (text : String) : Option Float :=
  let (minus, cs) := splitSign (Text.trimmed text.toList)
  (unsigned? cs).map fun x => if minus then -x else x

/-- The count that a text denotes, white space around it already removed. -/
def count? (cs : List Char) : Option Nat :=
  let ds := match cs with
    | '+' :: rest => rest
    | _ => cs
  if ds.isEmpty ∨ !ds.all Char.isDigit then none
  else
    let n := digitsValue ds
    if n < Nat.pow 2 64 then some n else none

end Clickstream.Decimal
