import Clickstream.Decimal.Double

/-! # The shortest decimal of a double

Of all decimals that read back as a given double, the one with the fewest digits, and of those the
nearest. For 1, 2, … 17 digits the two neighbours of the value on the grid of that many digits are
tested against the interval of numbers that round to the double; if any point of a grid lies in
the interval then one of the two neighbours does, so the first grid with a hit is the shortest.
-/

namespace Clickstream.Decimal

/-- A decimal with first digit at `10 ^ exponent` and no trailing zero. -/
structure Digits where
  /-- The digits, most significant first. -/
  digits : List Char
  /-- The power of ten of the first digit. -/
  exponent : Int
  deriving DecidableEq

/-- The power of ten of the first digit of a positive ratio. -/
def leadingExponent (num den : Nat) : Int :=
  let length (n : Nat) := (Nat.toDigits 10 n).length
  if num ≥ den then length (num / den) - 1
  else
    let shift := length den - length num
    if num * Nat.pow 10 shift ≥ den then -(shift : Int) else -(shift + 1 : Int)

/-- The ratios of a value and of the two ends of its interval, over one denominator. -/
structure Interval where
  /-- Numerator of the lower end. -/
  low : Nat
  /-- Numerator of the value. -/
  value : Nat
  /-- Numerator of the upper end. -/
  high : Nat
  /-- The common denominator. -/
  den : Nat
  /-- Whether the ends themselves round to the value. -/
  closed : Bool

/-- The numbers that round to a double. -/
def Binary.interval (b : Binary) : Interval :=
  let (up, down) := powerOfTwo (b.exponent - 2)
  let quarter := 4 * b.significand
  { low := (if b.closerBelow then quarter - 1 else quarter - 2) * up
    value := quarter * up
    high := (quarter + 2) * up
    den := down
    closed := b.significand % 2 = 0 }

/-- Measure everything in units of `10 ^ e`. -/
def Interval.inUnits (i : Interval) (e : Int) : Interval :=
  let up := Nat.pow 10 (-e).toNat
  { i with low := i.low * up, value := i.value * up, high := i.high * up,
           den := i.den * Nat.pow 10 e.toNat }

/-- Whether a whole number lies in the interval. -/
def Interval.holds (i : Interval) (n : Nat) : Bool :=
  if i.closed then i.low ≤ n * i.den ∧ n * i.den ≤ i.high
  else i.low < n * i.den ∧ n * i.den < i.high

/-- The whole number of the interval next to its value: the nearer of two, the even one in a tie. -/
def Interval.whole? (i : Interval) : Option Nat :=
  let below := i.value / i.den
  let twice := 2 * (i.value % i.den)
  match i.holds below, i.holds (below + 1) with
  | true, true =>
    some (if twice > i.den ∨ (twice = i.den ∧ below % 2 = 1) then below + 1 else below)
  | true, false => some below
  | false, true => some (below + 1)
  | false, false => none

/-- Digits of a whole number, without trailing zeros. -/
def significantDigits (n : Nat) : List Char :=
  ((Nat.toDigits 10 n).reverse.dropWhile (· = '0')).reverse

/-- Try grids of `count` digits and more; `tries` bounds how many. -/
def shortestFrom (i : Interval) (lead : Int) (count tries : Nat) : Digits :=
  match tries with
  | 0 => ⟨['0'], 0⟩
  | tries + 1 =>
    let unit := lead - count + 1
    match (i.inUnits unit).whole? with
    | some n => ⟨significantDigits n, unit + (Nat.toDigits 10 n).length - 1⟩
    | none => shortestFrom i lead (count + 1) tries

/-- The shortest decimal of the size of a finite double other than zero. -/
def shortest (x : Float) : Digits :=
  let i := (Binary.ofFloat x).interval
  shortestFrom i (leadingExponent i.value i.den) 1 17

end Clickstream.Decimal
