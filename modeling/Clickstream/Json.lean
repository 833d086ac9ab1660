import Clickstream.Table

/-! # JSON values

The free-form values that parameters, items and mappings hold. Whole numbers and doubles are kept
apart, so `1` and `1.0` are two values; the fields of an object that was read are in the order of
their names.
-/

namespace Clickstream

/-- A number as JSON text tells them apart. -/
inductive Number where
  /-- A whole number without point or exponent, from `-2 ^ 63` to `2 ^ 64 - 1`. -/
  | integer (n : Int)
  /-- Any other number. -/
  | double (x : Float)
  deriving DecidableEq, Inhabited

inductive Json where
  | null
  | bool (b : Bool)
  | number (n : Number)
  | string (s : String)
  | array (items : List Json)
  | object (fields : List (String × Json))
  deriving Inhabited

namespace Number

/-- Whether two numbers are of one kind and equal; the two zeros of the doubles are. -/
def same : Number → Number → Bool
  | .integer a, .integer b => a == b
  | .double a, .double b => a == b
  | _, _ => false

end Number

namespace Json

def string? : Json → Option String
  | string s => some s
  | _ => none

def bool? : Json → Option Bool
  | bool b => some b
  | _ => none

def array? : Json → Option (List Json)
  | array items => some items
  | _ => none

def object? : Json → Option (Fields Json)
  | object fields => some fields
  | _ => none

/-- A whole number that is not negative. -/
def nat? : Json → Option Nat
  | number (.integer n) => if n < 0 then none else some n.toNat
  | _ => none

def get? : Json → String → Option Json
  | object fields, name => Fields.get? fields name
  | _, _ => none

/-- Whether this is the null value. -/
def isNull : Json → Bool
  | null => true
  | _ => false

/-- The value of a natural number. -/
def ofNat (n : Nat) : Json := number (.integer n)

/-- A named field, if it is there. -/
def optionalField (name : String) (value : Option Json) : List (String × Json) :=
  match value with
  | some value => [(name, value)]
  | none => []

def ofStrings (texts : List String) : Json := array (texts.map string)

mutual

/-- Whether two values are built alike, field by field in the order they are held. -/
def same : Json → Json → Bool
  | null, null => true
  | bool a, bool b => a == b
  | number a, number b => a.same b
  | string a, string b => a == b
  | array a, array b => sameItems a b
  | object a, object b => sameFields a b
  | _, _ => false

def sameItems : List Json → List Json → Bool
  | [], [] => true
  | a :: as, b :: bs => same a b && sameItems as bs
  | _, _ => false

def sameFields : List (String × Json) → List (String × Json) → Bool
  | [], [] => true
  | (k, a) :: as, (l, b) :: bs => k == l && same a b && sameFields as bs
  | _, _ => false

end

mutual

/-- The value with the fields of every object in the order of their names. -/
def canonical : Json → Json
  | array items => array (canonicalItems items)
  | object fields => object (Fields.sorted (canonicalFields fields))
  | value => value

def canonicalItems : List Json → List Json
  | [] => []
  | item :: rest => canonical item :: canonicalItems rest

/-- Field by field, in place. -/
def canonicalFields : List (String × Json) → List (String × Json)
  | [] => []
  | (name, value) :: rest => (name, canonical value) :: canonicalFields rest

end

end Json

end Clickstream
