import Clickstream.Decimal.Numeral
import Clickstream.Time.Calendar

/-! # TOML

Reading configuration texts in the TOML 1.0 notation. Keys are put into a tree of tables as they
come. A table remembers how it came to be, because a table may be opened by one header only, a table
made by a dotted key can only be extended by dotted keys, and a table written inline is closed.
-/

namespace Clickstream

inductive Toml where
  | string (s : String)
  | integer (n : Int)
  /-- Any other number. -/
  | float
  | boolean (b : Bool)
  /-- A date, a time or both. -/
  | datetime
  | array (items : List Toml)
  /-- A table written in one line. -/
  | inline (fields : List (String × Toml))
  /-- A table of headers and keys: whether only its subtables have headers yet, whether a dotted key
  made it. -/
  | table (implicit dotted : Bool) (fields : List (String × Toml))
  /-- Tables of one header that may come again, the last one first. -/
  | tables (last : List (String × Toml)) (others : List Toml)
  deriving Inhabited

namespace Toml

/-! ## Characters -/

def isWhite (c : Char) : Bool := c = ' ' ∨ c = '\t'

def skipWhite (cs : List Char) : List Char := cs.dropWhile isWhite

/-- Characters that may stand in texts and comments. -/
def isPlain (c : Char) : Bool := c = '\t' ∨ (0x20 ≤ c.toNat ∧ c.toNat ≠ 0x7F)

/-- A line break, if one comes first. -/
def lineBreak? : List Char → Option (List Char)
  | '\n' :: rest => some rest
  | '\r' :: '\n' :: rest => some rest
  | _ => none

/-- Drop a comment, if one comes first. -/
def skipComment : List Char → List Char
  | '#' :: rest => rest.dropWhile isPlain
  | cs => cs

/-- The rest of a line after a statement. -/
def lineEnd? (cs : List Char) : Option (List Char) :=
  match skipComment (skipWhite cs) with
  | [] => some []
  | cs => lineBreak? cs

/-- Drop blanks, line breaks and comments; every round drops something. -/
def skipLines (rounds : Nat) (cs : List Char) : List Char :=
  match rounds with
  | 0 => cs
  | rounds + 1 =>
    let cs := skipComment (skipWhite cs)
    match lineBreak? cs with
    | some rest => skipLines rounds rest
    | none => cs

/-! ## Texts -/

def hexValue? (cs : List Char) : Option Nat :=
  cs.foldlM (fun n c =>
    if c.isDigit then some (16 * n + (c.toNat - '0'.toNat))
    else if 'a' ≤ c ∧ c ≤ 'f' then some (16 * n + (c.toNat - 'a'.toNat + 10))
    else if 'A' ≤ c ∧ c ≤ 'F' then some (16 * n + (c.toNat - 'A'.toNat + 10))
    else none) 0

/-- The character of a code point. -/
def scalar? (n : Nat) : Option Char :=
  if h : n.isValidChar then some (Char.ofNatAux n h) else none

/-- The character of a one-letter escape. -/
def escape? : Char → Option Char
  | 'b' => some '\x08'
  | 't' => some '\t'
  | 'n' => some '\n'
  | 'f' => some '\x0c'
  | 'r' => some '\r'
  | '"' => some '"'
  | '\\' => some '\\'
  | _ => none

/-- Where a text over several lines stands after a backslash. -/
inductive Folding where
  /-- Nothing is folded. -/
  | off
  /-- Blanks before the end of the line. -/
  | toLineEnd
  /-- Blanks and line breaks before the next character. -/
  | toNext
  deriving DecidableEq

/-- A text in double quotes up to its end; over several lines the end is three quotes. -/
def basic? (multi : Bool) (fold : Folding) : List Char → Option (List Char × List Char)
  | [] => none
  | '"' :: '"' :: '"' :: '"' :: '"' :: rest =>
    if fold = .toLineEnd then none
    else if multi then some (['"', '"'], rest)
    else some ([], '"' :: '"' :: '"' :: '"' :: rest)
  | '"' :: '"' :: '"' :: '"' :: rest =>
    if fold = .toLineEnd then none
    else if multi then some (['"'], rest) else some ([], '"' :: '"' :: '"' :: rest)
  | '"' :: '"' :: '"' :: rest =>
    if fold = .toLineEnd then none
    else if multi then some ([], rest) else some ([], '"' :: '"' :: rest)
  | '\\' :: 'u' :: a :: b :: c :: d :: rest =>
    if fold = .toLineEnd then none
    else do
      let char ← (hexValue? [a, b, c, d]).bind scalar?
      let (cs, rest) ← basic? multi .off rest
      return (char :: cs, rest)
  | '\\' :: 'U' :: a :: b :: c :: d :: e :: f :: g :: h :: rest =>
    if fold = .toLineEnd then none
    else do
      let char ← (hexValue? [a, b, c, d, e, f, g, h]).bind scalar?
      let (cs, rest) ← basic? multi .off rest
      return (char :: cs, rest)
  | '\\' :: c :: rest =>
    if fold = .toLineEnd then none
    else match escape? c with
      | some char => do
        let (cs, rest) ← basic? multi .off rest
        return (char :: cs, rest)
      | none =>
        if !multi then none
        else if isWhite c then basic? multi .toLineEnd rest
        else if c = '\n' then basic? multi .toNext rest
        else if c = '\r' ∧ rest.head? = some '\n' then basic? multi .toNext rest
        else none
  | '\r' :: '\n' :: rest =>
    if !multi then none
    else if fold ≠ .off then basic? multi .toNext rest
    else do
      let (cs, rest) ← basic? multi .off rest
      return ('\n' :: cs, rest)
  | c :: rest =>
    if c = '\n' then
      if !multi then none
      else if fold ≠ .off then basic? multi .toNext rest
      else do
        let (cs, rest) ← basic? multi .off rest
        return ('\n' :: cs, rest)
    else if isWhite c ∧ fold ≠ .off then basic? multi fold rest
    else if fold = .toLineEnd then none
    else if c = '"' ∧ !multi then some ([], rest)
    else if isPlain c then do
      let (cs, rest) ← basic? multi .off rest
      return (c :: cs, rest)
    else none

/-- A text in single quotes up to its end; over several lines the end is three quotes. -/
def literal? (multi : Bool) : List Char → Option (List Char × List Char)
  | [] => none
  | '\'' :: '\'' :: '\'' :: '\'' :: '\'' :: rest =>
    if multi then some (['\'', '\''], rest)
    else some ([], '\'' :: '\'' :: '\'' :: '\'' :: rest)
  | '\'' :: '\'' :: '\'' :: '\'' :: rest =>
    if multi then some (['\''], rest) else some ([], '\'' :: '\'' :: '\'' :: rest)
  | '\'' :: '\'' :: '\'' :: rest =>
    if multi then some ([], rest) else some ([], '\'' :: '\'' :: rest)
  | '\r' :: '\n' :: rest =>
    if multi then do
      let (cs, rest) ← literal? multi rest
      return ('\n' :: cs, rest)
    else none
  | c :: rest =>
    if c = '\'' ∧ !multi then some ([], rest)
    else if isPlain c ∨ (c = '\n' ∧ multi) then do
      let (cs, rest) ← literal? multi rest
      return (c :: cs, rest)
    else none

/-- Drop the line break that may follow the opening of a text over several lines. -/
def afterOpening (cs : List Char) : List Char := (lineBreak? cs).getD cs

/-- A text on one line. -/
def line? : List Char → Option (String × List Char)
  | '"' :: rest => (basic? false .off rest).map fun (cs, rest) => (String.ofList cs, rest)
  | '\'' :: rest => (literal? false rest).map fun (cs, rest) => (String.ofList cs, rest)
  | _ => none

def text? : List Char → Option (String × List Char)
  | '"' :: '"' :: '"' :: rest =>
    (basic? true .off (afterOpening rest)).map fun (cs, rest) => (String.ofList cs, rest)
  | '\'' :: '\'' :: '\'' :: rest =>
    (literal? true (afterOpening rest)).map fun (cs, rest) => (String.ofList cs, rest)
  | cs => line? cs

/-! ## Numbers and dates -/

/-- Digits with single underscores between them, taken out. -/
def digitRun? (isDigit : Char → Bool) (cs : List Char) : Option (List Char) :=
  let rec go (after : Bool) : List Char → Option (List Char)
    | [] => if after then some [] else none
    | '_' :: rest => if after then go false rest else none
    | c :: rest => if isDigit c then (go true rest).map (c :: ·) else none
  go false cs

/-- Digits without a leading zero. -/
def wholeRun? (cs : List Char) : Option (List Char) := do
  let ds ← digitRun? Char.isDigit cs
  if ds.length > 1 ∧ ds.head? = some '0' then none
  return ds

/-- Whether a character is a hexadecimal digit. -/
def isHexDigit (c : Char) : Bool :=
  c.isDigit ∨ ('a' ≤ c ∧ c ≤ 'f') ∨ ('A' ≤ c ∧ c ≤ 'F')

/-- The value of digits in a base up to 16. -/
def valueInBase (base : Nat) (ds : List Char) : Nat :=
  ds.foldl (fun n c => base * n + ((hexValue? [c]).getD 0)) 0

/-- A whole number of 64 bits. -/
def integer? (cs : List Char) : Option Toml := do
  let (minus, signed, body) := match cs with
    | '-' :: rest => (true, true, rest)
    | '+' :: rest => (false, true, rest)
    | cs => (false, false, cs)
  let n : Nat ← match body with
    | '0' :: 'x' :: ds =>
      if signed then none else (digitRun? isHexDigit ds).map (valueInBase 16)
    | '0' :: 'o' :: ds =>
      if signed then none
      else (digitRun? (fun c => '0' ≤ c ∧ c ≤ '7') ds).map (valueInBase 8)
    | '0' :: 'b' :: ds =>
      if signed then none else (digitRun? (fun c => c = '0' ∨ c = '1') ds).map (valueInBase 2)
    | ds => (wholeRun? ds).map Decimal.digitsValue
  let value : Int := if minus then -(n : Int) else n
  let limit := Int.ofNat (Nat.pow 2 63)
  if -limit ≤ value ∧ value < limit then some (.integer value) else none

/-- A number with a fraction or an exponent, an infinity or no number. -/
def float? (cs : List Char) : Option Toml := do
  let body := match cs with
    | '-' :: rest => rest
    | '+' :: rest => rest
    | cs => cs
  if body = "inf".toList ∨ body = "nan".toList then return .float
  let isMark (c : Char) : Bool := c = 'e' ∨ c = 'E'
  let mantissa := body.takeWhile fun c => !isMark c
  let whole := mantissa.takeWhile (· ≠ '.')
  let _ ← wholeRun? whole
  let fraction := mantissa.drop whole.length
  match fraction with
  | [] => if mantissa.length = body.length then none
  | _ :: digits =>
    let _ ← digitRun? Char.isDigit digits
  match body.drop mantissa.length with
  | [] => return .float
  | _ :: exponent =>
    let exponent := match exponent with
      | '-' :: rest => rest
      | '+' :: rest => rest
      | cs => cs
    let _ ← digitRun? Char.isDigit exponent
    return .float

/-- A number of two digits in a range, and what follows it. -/
def pair? (least most : Nat) : List Char → Option (Nat × List Char)
  | a :: b :: rest =>
    if a.isDigit ∧ b.isDigit then
      let n := Decimal.digitsValue [a, b]
      if least ≤ n ∧ n ≤ most then some (n, rest) else none
    else none
  | _ => none

def expect? (c : Char) : List Char → Option (List Char)
  | head :: rest => if head = c then some rest else none
  | [] => none

/-- A date, and what follows it. -/
def date? (cs : List Char) : Option (List Char) := do
  let year := cs.take 4
  if year.length < 4 ∨ !year.all Char.isDigit then none
  let (month, cs) ← pair? 1 12 (← expect? '-' (cs.drop 4))
  let (day, cs) ← pair? 1 31 (← expect? '-' cs)
  if day > Time.monthLength (Decimal.digitsValue year) month then none
  return cs

/-- A time of day, and what follows it. -/
def time? (cs : List Char) : Option (List Char) := do
  let (_, cs) ← pair? 0 23 cs
  let (_, cs) ← pair? 0 59 (← expect? ':' cs)
  let (_, cs) ← pair? 0 60 (← expect? ':' cs)
  match cs with
  | '.' :: rest =>
    if rest.takeWhile Char.isDigit = [] then none else return rest.dropWhile Char.isDigit
  | cs => return cs

/-- An offset from UTC at the end of a date and time. -/
def isOffset : List Char → Bool
  | [] => true
  | [c] => c = 'Z' ∨ c = 'z'
  | sign :: rest =>
    (sign = '+' ∨ sign = '-') ∧ (do
      let (_, cs) ← pair? 0 23 rest
      let (_, cs) ← pair? 0 59 (← expect? ':' cs)
      if cs = [] then some () else none).isSome

/-- A date, a time, or both with `T` between them. -/
def datetime? (cs : List Char) : Option Toml :=
  match date? cs with
  | some [] => some .datetime
  | some (c :: rest) =>
    if c = 'T' ∨ c = 't' ∨ c = ' ' then
      (time? rest).bind fun rest => if isOffset rest then some .datetime else none
    else none
  | none => (time? cs).bind fun rest => if rest = [] then some .datetime else none

/-- The characters of numbers, dates and words. -/
def isWordChar (c : Char) : Bool :=
  c.isAlphanum ∨ c = '_' ∨ c = '+' ∨ c = '-' ∨ c = '.' ∨ c = ':'

/-- A number, a date or a word; a date may be parted from its time by one space. -/
def bare? (cs : List Char) : Option (Toml × List Char) :=
  let word := cs.takeWhile isWordChar
  let rest := cs.drop word.length
  let (word, rest) := match date? word, rest with
    | some [], ' ' :: after =>
      let time := after.takeWhile isWordChar
      if (time.head?.any Char.isDigit) then (word ++ ' ' :: time, after.drop time.length)
      else (word, rest)
    | _, _ => (word, rest)
  let value := if word = "true".toList then some (.boolean true)
    else if word = "false".toList then some (.boolean false)
    else ((datetime? word).or (integer? word)).or (float? word)
  value.map (·, rest)

/-! ## Keys and tables -/

/-- Characters of a key without quotes. -/
def isKeyChar (c : Char) : Bool := c.isAlphanum ∨ c = '_' ∨ c = '-'

/-- One part of a key. -/
def keyPart? (cs : List Char) : Option (String × List Char) :=
  match cs with
  | '"' :: _ => line? cs
  | '\'' :: _ => line? cs
  | cs =>
    let key := cs.takeWhile isKeyChar
    if key.isEmpty then none else some (String.ofList key, cs.drop key.length)

/-- The parts of a key with dots between them; every round reads one part. -/
def key? (rounds : Nat) (cs : List Char) : Option (List String × List Char) :=
  match rounds with
  | 0 => none
  | rounds + 1 => do
    let (part, cs) ← keyPart? (skipWhite cs)
    let cs := skipWhite cs
    match cs with
    | '.' :: rest =>
      let (parts, cs) ← key? rounds rest
      return (part :: parts, cs)
    | cs => return ([part], cs)

/-- The value under a key. -/
def get? (fields : List (String × Toml)) (key : String) : Option Toml :=
  (fields.find? (·.1 = key)).map (·.2)

/-- Put a value under a key. -/
def put (fields : List (String × Toml)) (key : String) (value : Toml) : List (String × Toml) :=
  if (get? fields key).isSome then
    fields.map fun field => if field.1 = key then (key, value) else field
  else fields ++ [(key, value)]

/-- The fields of a table with the way it came to be, and how to put changed fields back. -/
structure Place where
  fields : List (String × Toml)
  /-- Whether a dotted key made it. -/
  dotted : Bool

/-- Change the table at a path; tables on the way are made as needed. -/
def change (byDots : Bool) (path : List String) (edit : Place → Option (List (String × Toml)))
    (place : Place) : Option (List (String × Toml)) :=
  match path with
  | [] => edit place
  | key :: rest => do
    match get? place.fields key with
    | none =>
      let fields ← change byDots rest edit ⟨[], byDots⟩
      return put place.fields key (.table true byDots fields)
    | some (.table implicit dotted fields) =>
      if byDots ∧ !implicit then none
      let fields ← change byDots rest edit ⟨fields, dotted⟩
      return put place.fields key (.table implicit dotted fields)
    | some (.tables last others) =>
      let last ← change byDots rest edit ⟨last, false⟩
      return put place.fields key (.tables last others)
    | some _ => none

/-- Put a value under a key that may be dotted. -/
def assign (key : List String) (value : Toml) (place : Place) : Option (List (String × Toml)) := do
  let path := key.dropLast
  let name ← key.getLast?
  change true path (fun place =>
    if place.dotted = path.isEmpty ∨ (get? place.fields name).isSome then none
    else some (place.fields ++ [(name, value)])) place

/-- Open a table by its header. -/
def openTable (key : List String) (root : List (String × Toml)) :
    Option (List (String × Toml)) := do
  let name ← key.getLast?
  change false key.dropLast (fun place =>
    match get? place.fields name with
    | none => some (place.fields ++ [(name, .table false false [])])
    | some (.table true false fields) => some (put place.fields name (.table false false fields))
    | some _ => none) ⟨root, false⟩

/-- Open one more table of a header that may come again. -/
def openNext (key : List String) (root : List (String × Toml)) :
    Option (List (String × Toml)) := do
  let name ← key.getLast?
  change false key.dropLast (fun place =>
    match get? place.fields name with
    | none => some (place.fields ++ [(name, .tables [] [])])
    | some (.tables last others) =>
      some (put place.fields name (.tables [] (.inline last :: others)))
    | some _ => none) ⟨root, false⟩

/-! ## Values -/

mutual

/-- A value, and what follows it; every round opens a bracket or reads an entry. -/
def value? (rounds : Nat) (cs : List Char) : Option (Toml × List Char) :=
  match rounds with
  | 0 => none
  | rounds + 1 =>
    match cs with
    | '"' :: _ => (text? cs).map fun (s, rest) => (.string s, rest)
    | '\'' :: _ => (text? cs).map fun (s, rest) => (.string s, rest)
    | '[' :: rest => (items? rounds rest).map fun (items, rest) => (.array items, rest)
    | '\x7b' :: rest =>
      match skipWhite rest with
      | '\x7d' :: rest => some (.inline [], rest)
      | rest => (entries? rounds [] rest).map fun (fields, rest) => (.inline fields, rest)
    | cs => bare? cs

/-- The items of an array up to its end. -/
def items? (rounds : Nat) (cs : List Char) : Option (List Toml × List Char) :=
  match rounds with
  | 0 => none
  | rounds + 1 =>
    match skipLines (rounds + 1) cs with
    | ']' :: rest => some ([], rest)
    | cs => do
      let (item, cs) ← value? rounds cs
      match skipLines (rounds + 1) cs with
      | ',' :: rest =>
        let (items, rest) ← items? rounds rest
        return (item :: items, rest)
      | ']' :: rest => return ([item], rest)
      | _ => none

/-- The entries of an inline table up to its end. -/
def entries? (rounds : Nat) (fields : List (String × Toml)) (cs : List Char) :
    Option (List (String × Toml) × List Char) :=
  match rounds with
  | 0 => none
  | rounds + 1 => do
    let (key, cs) ← key? (rounds + 1) cs
    let (value, cs) ← value? rounds (skipWhite (← expect? '=' cs))
    let fields ← assign key value ⟨fields, false⟩
    match skipWhite cs with
    | ',' :: rest => entries? rounds fields rest
    | '\x7d' :: rest => return (fields, rest)
    | _ => none

end

/-! ## Texts of statements -/

/-- The statements of a text; `here` is the header they stand under. Every round reads a line. -/
def statements? (rounds : Nat) (root : List (String × Toml)) (here : List String)
    (cs : List Char) : Option (List (String × Toml)) :=
  match rounds with
  | 0 => none
  | rounds + 1 =>
    match skipLines (rounds + 1) cs with
    | [] => some root
    | '[' :: '[' :: rest => do
      let (key, cs) ← key? (rounds + 1) rest
      let cs ← lineEnd? (← expect? ']' (← expect? ']' cs))
      statements? rounds (← openNext key root) key cs
    | '[' :: rest => do
      let (key, cs) ← key? (rounds + 1) rest
      let cs ← lineEnd? (← expect? ']' cs)
      statements? rounds (← openTable key root) key cs
    | cs => do
      let (key, cs) ← key? (rounds + 1) cs
      let (value, cs) ← value? (rounds + 1) (skipWhite (← expect? '=' cs))
      let cs ← lineEnd? cs
      statements? rounds (← change false here (assign key value) ⟨root, false⟩) here cs

/-- The fields of a configuration text. -/
def parse? (text : String) : Option (List (String × Toml)) :=
  let cs := match text.toList with
    | '\ufeff' :: rest => rest
    | cs => cs
  statements? (cs.length + 1) [] [] cs

end Toml

end Clickstream
