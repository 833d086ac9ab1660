import Clickstream.Json
import Clickstream.IdSet
import Clickstream.Decimal.Double

/-! # Documents

A JSON text before it is known what it should hold. Unlike a value, a document keeps repeated
fields apart, and it keeps a mark where the text is well-formed but denotes no value: a number past
the doubles, half of a surrogate pair, a nesting of more than 127 levels. Such a mark is harmless in
a field that nobody reads. A record takes its fields by name, each at most once, or by position from
an array.
-/

namespace Clickstream

/-- A JSON text as it is written. -/
inductive Document where
  | null
  | bool (b : Bool)
  | number (n : Number)
  | string (s : String)
  | array (items : List Document)
  /-- Fields in braces, in the order of the text and perhaps repeated. -/
  | object (fields : List (String × Document))
  | unreadable
  deriving Inhabited

/-- Records by position: no more items than fields. -/
def Record.ofItems? (names : List (List String)) (items : List α) : Option (List (Option α)) :=
  if items.length ≤ names.length then
    some (items.map some ++ List.replicate (names.length - items.length) none)
  else none

/-- The one field that goes by some of the names; none of them is fine, two are not. -/
def Record.pick? (fields : List (String × α)) (group : List String) : Option (Option α) :=
  match fields.filter (fun field => group.contains field.1) with
  | [] => some none
  | [field] => some (some field.2)
  | _ => none

/-- Records by name; fields of other names do not matter. -/
def Record.ofFields? (names : List (List String)) (fields : List (String × α)) :
    Option (List (Option α)) :=
  names.mapM (Record.pick? fields)

namespace Document

/-- What messages say of a text that is not the document it should be. -/
def misfit : String := "not such a document"

mutual

/-- The value of a document: repeated fields keep the last one, fields are put in order. -/
def value? : Document → Option Json
  | null => some .null
  | bool b => some (.bool b)
  | number n => some (.number n)
  | string s => some (.string s)
  | array items => (values? items).map .array
  | object fields => (fieldValues? fields).map fun fs => .object (Fields.sorted fs)
  | unreadable => none

def values? : List Document → Option (List Json)
  | [] => some []
  | item :: rest => do return (← value? item) :: (← values? rest)

/-- The values of fields, in place. -/
def fieldValues? : List (String × Document) → Option (List (String × Json))
  | [] => some []
  | (name, d) :: rest => do return (name, ← value? d) :: (← fieldValues? rest)

end

mutual

/-- The document that a value would be written as. -/
def ofJson : Json → Document
  | .null => null
  | .bool b => bool b
  | .number n => number n
  | .string s => string s
  | .array items => array (ofItems items)
  | .object fields => object (ofFields fields)

def ofItems : List Json → List Document
  | [] => []
  | item :: rest => ofJson item :: ofItems rest

def ofFields : List (String × Json) → List (String × Document)
  | [] => []
  | (name, value) :: rest => (name, ofJson value) :: ofFields rest

end

def string? : Document → Option String
  | string s => some s
  | _ => none

def bool? : Document → Option Bool
  | bool b => some b
  | _ => none

/-- Any number as a double. -/
def double? : Document → Option Float
  | number (.integer n) => some (Decimal.ofInt n)
  | number (.double x) => some x
  | _ => none

/-- The items of an array, each read the same way. -/
def list? (read : Document → Option α) : Document → Option (List α)
  | array items => items.mapM read
  | _ => none

/-- An array of texts as a set. -/
def idSet? (d : Document) : Option IdSet := (d.list? string?).map IdSet.ofList

/-- The fields of an object as free-form values. -/
def fields? (d : Document) : Option (Fields Json) := d.value?.bind Json.object?

/-- One of finitely many words, written bare or as the only field of an object that holds `null`. -/
def word? (read : String → Option α) : Document → Option α
  | string s => read s
  | object [(s, null)] => read s
  | _ => none

/-- The fields of a record in the order of their declaration; each comes with its names. -/
def record? (names : List (List String)) : Document → Option (List (Option Document))
  | array items => Record.ofItems? names items
  | object fields => Record.ofFields? names fields
  | _ => none

/-- A field that has to be there. -/
def required (read : Document → Option α) : Option Document → Option α
  | none => none
  | some d => read d

/-- A field that may be missing or `null`. -/
def optional (read : Document → Option α) : Option Document → Option (Option α)
  | none => some none
  | some null => some none
  | some d => (read d).map some

/-- A field with a default. -/
def defaulting (default : α) (read : Document → Option α) : Option Document → Option α
  | none => some default
  | some d => read d

end Document

end Clickstream
