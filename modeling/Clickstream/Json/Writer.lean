import Clickstream.Json
import Clickstream.Decimal.Shortest

/-! # The text of a JSON value

Two layouts of one notation: compact, and indented by two spaces. A double is written with its
shortest decimal, positionally from `1e-5` up to below `1e16` and always with a fraction there, else
with a signed exponent; a number that is no number is `null`. Only quotes, backslashes and control
characters are escaped.
-/

namespace Clickstream.Json

/-- Positional notation starts at this power of ten. -/
def leastPositional : Int := -5

/-- Positional notation ends below this power of ten. -/
def positionalEnd : Int := 16

/-- Digits with a point, at least one digit on either side of it. -/
def positional (d : Decimal.Digits) : List Char :=
  if d.exponent < 0 then
    '0' :: '.' :: List.replicate (-d.exponent - 1).toNat '0' ++ d.digits
  else
    let count := d.exponent.toNat + 1
    let whole := d.digits.take count
    let fraction := d.digits.drop count
    whole ++ List.replicate (count - d.digits.length) '0' ++ '.' ::
      (if fraction.isEmpty then ['0'] else fraction)

/-- One digit before the point, none of it if there is no other, and a signed exponent. -/
def scientific (d : Decimal.Digits) : List Char :=
  let sign := if d.exponent < 0 then '-' else '+'
  d.digits.take 1 ++ (if d.digits.length > 1 then '.' :: d.digits.drop 1 else []) ++
    'e' :: sign :: Nat.toDigits 10 d.exponent.natAbs

def doubleText (x : Float) : String :=
  if x.isNaN ∨ x.isInf then "null"
  else
    let size := if x == 0.0 then ['0', '.', '0']
      else
        let d := Decimal.shortest x
        if leastPositional ≤ d.exponent ∧ d.exponent < positionalEnd then positional d
        else scientific d
    String.ofList (if Decimal.negative x then '-' :: size else size)

def numberText : Number → String
  | .integer n => toString n
  | .double x => doubleText x

def escaped (c : Char) : List Char :=
  match c with
  | '"' => ['\\', '"']
  | '\\' => ['\\', '\\']
  | '\x08' => ['\\', 'b']
  | '\x0c' => ['\\', 'f']
  | '\n' => ['\\', 'n']
  | '\r' => ['\\', 'r']
  | '\t' => ['\\', 't']
  | c =>
    if c.toNat < 0x20 then
      '\\' :: 'u' :: '0' :: '0' :: [Nat.digitChar (c.toNat / 16), Nat.digitChar (c.toNat % 16)]
    else [c]

def quoted (s : String) : String :=
  String.ofList ('"' :: s.toList.flatMap escaped ++ ['"'])

mutual

/-- The text of a value without white space. -/
def compact : Json → String
  | null => "null"
  | bool b => if b then "true" else "false"
  | number n => numberText n
  | string s => quoted s
  | array items => "[" ++ ",".intercalate (compactItems items) ++ "]"
  | object fields => "\x7b" ++ ",".intercalate (compactFields fields) ++ "\x7d"

def compactItems : List Json → List String
  | [] => []
  | item :: rest => compact item :: compactItems rest

def compactFields : List (String × Json) → List String
  | [] => []
  | (name, value) :: rest => (quoted name ++ ":" ++ compact value) :: compactFields rest

end

/-- Entries between brackets, one to a line at a depth, or the bare brackets without entries. -/
def block (opening closing : String) (depth : Nat) (entries : List String) : String :=
  match entries with
  | [] => opening ++ closing
  | entries =>
    let lineBreak (depth : Nat) := "".pushn ' ' (2 * depth) |> ("\n" ++ ·)
    opening ++ lineBreak (depth + 1) ++ ("," ++ lineBreak (depth + 1)).intercalate entries
      ++ lineBreak depth ++ closing

mutual

/-- The text of a value with entries on lines of their own, at a depth. -/
def indented (depth : Nat) : Json → String
  | array items => block "[" "]" depth (indentedItems (depth + 1) items)
  | object fields => block "\x7b" "\x7d" depth (indentedFields (depth + 1) fields)
  | null => "null"
  | bool b => if b then "true" else "false"
  | number n => numberText n
  | string s => quoted s

def indentedItems (depth : Nat) : List Json → List String
  | [] => []
  | item :: rest => indented depth item :: indentedItems depth rest

def indentedFields (depth : Nat) : List (String × Json) → List String
  | [] => []
  | (name, value) :: rest =>
    (quoted name ++ ": " ++ indented depth value) :: indentedFields depth rest

end

/-- The text of a value on indented lines. -/
def pretty (value : Json) : String := indented 0 value

end Clickstream.Json
