import Clickstream.Document

/-! # Reading JSON text

Strict reading of RFC 8259 in two passes: characters to tokens, tokens to a document by a machine
that holds the brackets still open. A whole number that fits 64 bits stays whole, `-0` is the
negative zero of the doubles, and any other number takes as many leading digits as fit 64 bits and
scales the nearest double by the power of ten that remains.
-/

namespace Clickstream.Json

/-- The greatest number of nested arrays and objects that a value may have. -/
def depthLimit : Nat := 127

/-- A unit of JSON text. -/
inductive Token where
  | openArray
  | closeArray
  | openObject
  | closeObject
  /-- Between entries. -/
  | comma
  /-- Between a name and its value. -/
  | colon
  /-- A word or number, or one that denotes no value. -/
  | scalar (d : Document)
  /-- A quoted text, absent if it denotes none. -/
  | text (s : Option String)

/-- Digits read so far: the number they form, and the power of ten it stands for. -/
structure Mantissa where
  digits : Nat
  exponent : Int
  /-- A digit did not fit, and none is taken until the point. -/
  full : Bool

/-- Take a digit of the whole part; one that does not fit only scales. -/
def Mantissa.whole (m : Mantissa) (c : Char) : Mantissa :=
  let next := m.digits * 10 + (c.toNat - '0'.toNat)
  if m.full ∨ next ≥ Nat.pow 2 64 then { m with exponent := m.exponent + 1, full := true }
  else { m with digits := next }

/-- Take a digit of the fraction; one that does not fit is dropped. -/
def Mantissa.fraction (m : Mantissa) (c : Char) : Mantissa :=
  let next := m.digits * 10 + (c.toNat - '0'.toNat)
  if m.full ∨ next ≥ Nat.pow 2 64 then { m with full := true }
  else { m with digits := next, exponent := m.exponent - 1 }

/-- `x * 10 ^ exponent` in double arithmetic, in steps of at most `10 ^ 308`; `none` if infinite. -/
def rescale (x : Float) (exponent : Int) : Option Float :=
  if exponent > 308 then if x == 0.0 then some x else none
  else if exponent ≥ 0 then
    let y := x * Decimal.scaled 1 exponent
    if y.isInf then none else some y
  else if exponent ≥ -308 then some (x / Decimal.scaled 1 (-exponent))
  else if x == 0.0 then some x
  else rescale (x / Decimal.scaled 1 308) (exponent + 308)
termination_by exponent.natAbs
decreasing_by omega

/-- The double of a mantissa, with an exponent that was written after it. -/
def Mantissa.double (m : Mantissa) (minus : Bool) (written : Int) : Document :=
  match rescale (Decimal.ofInt m.digits) (m.exponent + written) with
  | some x => .number (.double (if minus then -x else x))
  | none => .unreadable

/-- A whole number, as an integer if it fits. -/
def Mantissa.integer (m : Mantissa) (minus : Bool) : Document :=
  if m.full then m.double minus 0
  else if !minus then .number (.integer m.digits)
  else if m.digits = 0 ∨ m.digits > Nat.pow 2 63 then m.double minus 0
  else .number (.integer (-m.digits))

/-- The exponent after `e`: a sign and digits, and what follows them. -/
def exponent? (cs : List Char) : Option (Int × List Char) :=
  let (minus, cs) := match cs with
    | '-' :: rest => (true, rest)
    | '+' :: rest => (false, rest)
    | cs => (false, cs)
  let ds := cs.takeWhile Char.isDigit
  if ds.isEmpty then none
  else
    let n := ds.foldl (fun n c => 10 * n + (c.toNat - '0'.toNat)) 0
    some (if minus then -(n : Int) else n, cs.dropWhile Char.isDigit)

/-- A number and what follows it. -/
def numeral? (cs : List Char) : Option (Document × List Char) :=
  let (minus, cs) := match cs with
    | '-' :: rest => (true, rest)
    | cs => (false, cs)
  let ds := match cs with
    | '0' :: _ => ['0']
    | cs => cs.takeWhile Char.isDigit
  let rest := cs.drop ds.length
  if ds.isEmpty then none
  else
    let m := ds.foldl Mantissa.whole ⟨0, 0, false⟩
    let tail (m : Mantissa) (cs : List Char) (plain : Document) : Option (Document × List Char) :=
      match cs with
      | 'e' :: rest => (exponent? rest).map fun (e, rest) => (m.double minus e, rest)
      | 'E' :: rest => (exponent? rest).map fun (e, rest) => (m.double minus e, rest)
      | cs => some (plain, cs)
    match rest with
    | '.' :: rest =>
      let fs := rest.takeWhile Char.isDigit
      if fs.isEmpty then none
      else
        let m := fs.foldl Mantissa.fraction { m with full := false }
        tail m (rest.dropWhile Char.isDigit) (m.double minus 0)
    | rest => tail m rest (m.integer minus)

/-- The value of a hexadecimal digit. -/
def hexDigit? (c : Char) : Option Nat :=
  if c.isDigit then some (c.toNat - '0'.toNat)
  else if 'a' ≤ c ∧ c ≤ 'f' then some (c.toNat - 'a'.toNat + 10)
  else if 'A' ≤ c ∧ c ≤ 'F' then some (c.toNat - 'A'.toNat + 10)
  else none

/-- The unit of four hexadecimal digits. -/
def unit? (a b c d : Char) : Option Nat := do
  return (((← hexDigit? a) * 16 + (← hexDigit? b)) * 16 + (← hexDigit? c)) * 16 + (← hexDigit? d)

/-- A character of a quoted text: one read, or half of a surrogate pair. -/
inductive TextUnit where
  | char (c : Char)
  /-- The first half of a pair. -/
  | high (n : Nat)
  /-- The second half of a pair. -/
  | low (n : Nat)

/-- The unit that a number stands for. -/
def TextUnit.ofNat (n : Nat) : TextUnit :=
  if 0xD800 ≤ n ∧ n < 0xDC00 then high n
  else if 0xDC00 ≤ n ∧ n < 0xE000 then low n
  else char (Char.ofNat n)

/-- The units up to the closing quote, and what follows it. -/
def units? : List Char → Option (List TextUnit × List Char)
  | [] => none
  | '"' :: rest => some ([], rest)
  | '\\' :: 'u' :: a :: b :: c :: d :: rest => do
    let n ← unit? a b c d
    let (units, rest) ← units? rest
    return (TextUnit.ofNat n :: units, rest)
  | '\\' :: c :: rest => do
    let c ← match c with
      | '"' => some '"'
      | '\\' => some '\\'
      | '/' => some '/'
      | 'b' => some '\x08'
      | 'f' => some '\x0c'
      | 'n' => some '\n'
      | 'r' => some '\r'
      | 't' => some '\t'
      | _ => none
    let (units, rest) ← units? rest
    return (.char c :: units, rest)
  | c :: rest => do
    if c.toNat < 0x20 then none
    let (units, rest) ← units? rest
    return (.char c :: units, rest)

/-- Join surrogate pairs; `none` if one half stands alone. -/
def joined? : List TextUnit → Option (List Char)
  | [] => some []
  | .char c :: rest => (joined? rest).map (c :: ·)
  | .high h :: .low l :: rest =>
    (joined? rest).map (Char.ofNat (0x10000 + (h - 0xD800) * 0x400 + (l - 0xDC00)) :: ·)
  | _ => none

/-- The first token of a text that starts with no white space. -/
def token? : List Char → Option (Token × List Char)
  | '[' :: rest => some (.openArray, rest)
  | ']' :: rest => some (.closeArray, rest)
  | '\x7b' :: rest => some (.openObject, rest)
  | '\x7d' :: rest => some (.closeObject, rest)
  | ',' :: rest => some (.comma, rest)
  | ':' :: rest => some (.colon, rest)
  | '"' :: rest => do
    let (units, rest) ← units? rest
    return (.text ((joined? units).map String.ofList), rest)
  | 'n' :: 'u' :: 'l' :: 'l' :: rest => some (.scalar .null, rest)
  | 't' :: 'r' :: 'u' :: 'e' :: rest => some (.scalar (.bool true), rest)
  | 'f' :: 'a' :: 'l' :: 's' :: 'e' :: rest => some (.scalar (.bool false), rest)
  | cs => (numeral? cs).map fun (d, rest) => (.scalar d, rest)

def isSpace (c : Char) : Bool := c = ' ' ∨ c = '\t' ∨ c = '\n' ∨ c = '\r'

/-- The tokens of a text; every round takes a character, so its length is enough rounds. -/
def tokens? (rounds : Nat) (cs : List Char) : Option (List Token) :=
  match rounds, cs with
  | _, [] => some []
  | 0, _ => none
  | rounds + 1, c :: rest =>
    if isSpace c then tokens? rounds rest
    else do
      let (token, rest) ← token? (c :: rest)
      return token :: (← tokens? rounds rest)

/-- A bracket that is still open, with what it holds so far, last entry first. -/
inductive Frame where
  | array (items : List Document)
  /-- An object; the names are absent where a text denotes none. -/
  | object (fields : List (Option String × Document))
  /-- An object after a name. -/
  | named (fields : List (Option String × Document)) (name : Option String)

/-- What the machine accepts next. -/
inductive Expecting where
  /-- A value, or the end of an array just opened. -/
  | item (first : Bool)
  /-- A name, or the end of an object just opened. -/
  | name (first : Bool)
  /-- The colon after a name. -/
  | colon
  /-- A comma or a closing bracket, or the end of the text. -/
  | next

/-- The machine between two tokens. -/
structure Reading where
  /-- The open brackets, innermost first. -/
  frames : List Frame := []
  expecting : Expecting := .item false
  result : Option Document := none

/-- Put a finished value where it belongs. -/
def Reading.put (r : Reading) (d : Document) : Option Reading :=
  match r.frames with
  | [] => some { r with expecting := .next, result := some d }
  | .array items :: outer => some { r with frames := .array (d :: items) :: outer, expecting := .next }
  | .named fields name :: outer =>
    some { r with frames := .object ((name, d) :: fields) :: outer, expecting := .next }
  | .object _ :: _ => none

/-- The document of a bracket that closes inside `outer` others. -/
def closed (outer : Nat) (d : Document) : Document :=
  if outer < depthLimit then d else .unreadable

/-- The object of fields in reverse, unless one of the names is no text. -/
def objectOf (fields : List (Option String × Document)) : Document :=
  match fields.reverse.mapM (fun (name, d) => name.map (·, d)) with
  | some fields => .object fields
  | none => .unreadable

/-- Close the innermost bracket. -/
def Reading.close (r : Reading) (token : Token) : Option Reading :=
  match r.frames, token with
  | .array items :: outer, .closeArray =>
    ({ r with frames := outer }).put (closed outer.length (.array items.reverse))
  | .object fields :: outer, .closeObject =>
    ({ r with frames := outer }).put (closed outer.length (objectOf fields))
  | _, _ => none

def Reading.step (r : Reading) (token : Token) : Option Reading :=
  match r.expecting, token with
  | .item _, .openArray => some { r with frames := .array [] :: r.frames, expecting := .item true }
  | .item _, .openObject => some { r with frames := .object [] :: r.frames, expecting := .name true }
  | .item _, .scalar d => r.put d
  | .item _, .text s => r.put (match s with | some s => .string s | none => .unreadable)
  | .item true, .closeArray => r.close token
  | .name _, .text s =>
    match r.frames with
    | .object fields :: outer =>
      some { r with frames := .named fields s :: outer, expecting := .colon }
    | _ => none
  | .name true, .closeObject => r.close token
  | .colon, .colon => some { r with expecting := .item false }
  | .next, .comma =>
    match r.frames with
    | .array _ :: _ => some { r with expecting := .item false }
    | .object _ :: _ => some { r with expecting := .name false }
    | _ => none
  | .next, .closeArray => r.close token
  | .next, .closeObject => r.close token
  | _, _ => none

/-- The document of a whole text. -/
def read? (text : String) : Option Document := do
  let cs := text.toList
  let final ← (← tokens? cs.length cs).foldlM Reading.step {}
  match final.frames with
  | [] => final.result
  | _ => none

/-- The value of a whole text. -/
def parse? (text : String) : Option Json := do (← read? text).value?

end Clickstream.Json
