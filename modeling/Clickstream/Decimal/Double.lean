/-! # Doubles as exact numbers

A finite double is a whole significand times a power of two, and a ratio of natural numbers has
one nearest double, the one with the even significand winning a tie. Everything that reads or
writes a double goes through these two views and so through exact arithmetic. Written with a given
number of decimal places, the exact value is rounded once.
-/

namespace Clickstream.Decimal

/-- The size of a finite double: `significand * 2 ^ exponent`. -/
structure Binary where
  significand : Nat
  /-- At least −1074. -/
  exponent : Int
  /-- The next smaller double is only half as far away as the next greater one. -/
  closerBelow : Bool
  deriving DecidableEq

/-- Whether the sign bit is set, that of zero included. -/
def negative (x : Float) : Bool := x.toBits ≥ 0x8000000000000000

/-- The size of a double that is neither infinite nor a NaN. -/
def Binary.ofFloat (x : Float) : Binary :=
  let bits := x.toBits.toNat % Nat.pow 2 63
  let fraction := bits % Nat.pow 2 52
  let field := bits / Nat.pow 2 52
  if field = 0 then ⟨fraction, -1074, false⟩
  else ⟨fraction + Nat.pow 2 52, Int.ofNat field - 1075, fraction = 0 ∧ field > 1⟩

/-- The whole number nearest to `num / den`, the even one of two. -/
def roundRatio (num den : Nat) : Nat :=
  let whole := num / den
  let twice := 2 * (num % den)
  if twice > den ∨ (twice = den ∧ whole % 2 = 1) then whole + 1 else whole

/-- `2 ^ e` as a numerator and a denominator. -/
def powerOfTwo (e : Int) : Nat × Nat := (Nat.pow 2 e.toNat, Nat.pow 2 (-e).toNat)

/-- The double nearest to `num / den`; past the greatest one it is the infinity. -/
def nearestDouble (num den : Nat) : Float :=
  if num = 0 then 0.0
  else
    let guess : Int := (num.log2 : Int) - den.log2 - 53
    let start := max guess (-1074)
    let digits (e : Int) : Nat :=
      let (up, down) := powerOfTwo e
      roundRatio (num * down) (den * up)
    let e := if digits start < Nat.pow 2 53 then start else start + 1
    let significand := digits e
    let (significand, e) :=
      if significand = Nat.pow 2 53 then (Nat.pow 2 52, e + 1) else (significand, e)
    if significand < Nat.pow 2 52 then Float.ofBits (UInt64.ofNat significand)
    else
      let field := (e + 1075).toNat
      if field ≥ 2047 then Float.ofBits 0x7FF0000000000000
      else Float.ofBits (UInt64.ofNat (field * Nat.pow 2 52 + (significand - Nat.pow 2 52)))

/-- The double nearest to an integer. -/
def ofInt (n : Int) : Float :=
  if n < 0 then -(nearestDouble n.natAbs 1) else nearestDouble n.natAbs 1

/-- The double nearest to `digits * 10 ^ exponent`. -/
def scaled (digits : Nat) (exponent : Int) : Float :=
  if exponent ≥ 0 then nearestDouble (digits * Nat.pow 10 exponent.toNat) 1
  else nearestDouble digits (Nat.pow 10 (-exponent).toNat)

/-- A key that orders all doubles by value, −0.0 before 0.0 and NaNs at the two ends. -/
def orderKey (x : Float) : Int :=
  let bits := x.toBits.toNat
  if bits < Nat.pow 2 63 then bits else Int.ofNat (Nat.pow 2 63) - 1 - bits

/-! ## Fixed places -/

/-- Pad on the left with zeros. -/
def zeroPad (width : Nat) (text : String) : String :=
  "".pushn '0' (width - text.length) ++ text

/-- A double with `places` digits after the point, or the name of its infinity or NaN. -/
def fixed (places : Nat) (x : Float) : String :=
  if x.isNaN then "NaN"
  else
    let sign := if negative x then "-" else ""
    if x.isInf then sign ++ "inf"
    else
      let b := Binary.ofFloat x
      let (up, down) := powerOfTwo b.exponent
      let units := roundRatio (b.significand * Nat.pow 10 places * up) down
      let fraction := if places = 0 then ""
        else "." ++ zeroPad places (toString (units % Nat.pow 10 places))
      sign ++ toString (units / Nat.pow 10 places) ++ fraction

end Clickstream.Decimal
