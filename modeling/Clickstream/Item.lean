import Clickstream.Document
import Clickstream.Json.Writer

/-! # Items

What a store holds: a type, an id and the fields of a body. A field is named by a dotted path.
Names of fields may contain dots themselves, so a path can be cut in several ways: at every level
the longest name wins from which the rest of the path can be followed.
-/

namespace Clickstream

structure Item where
  /-- The id, unique among the items of its type. -/
  id : String
  type : String
  body : Fields Json := []
  deriving Inhabited

/-- The parts of a dotted path. -/
def FieldPath.segments (path : String) : List String :=
  let rec split (part : List Char) : List Char → List String
    | [] => [String.ofList part.reverse]
    | c :: rest =>
      if c = '.' then String.ofList part.reverse :: split [] rest else split (c :: part) rest
  split [] path.toList

/-- Follow a path from an object, with the first name at least as long as `name`. -/
def FieldPath.follow (fields : Fields Json) (name : String) : List String → Option Json
  | [] => fields.get? name
  | segment :: rest =>
    (FieldPath.follow fields (name ++ "." ++ segment) rest).or <|
      match fields.get? name with
      | some (.object inner) => FieldPath.follow inner segment rest
      | _ => none

/-- The value that a path leads to. -/
def FieldPath.lookup (fields : Fields Json) : List String → Option Json
  | [] => none
  | segment :: rest => FieldPath.follow fields segment rest

namespace Item

/-- The value at a path in the body. -/
def field? (item : Item) (path : String) : Option Json :=
  if path = "itemId" ∨ path = "itemType" then none
  else FieldPath.lookup item.body (FieldPath.segments path)

/-- The value at a path, the id and the type of the item among them. -/
def value? (item : Item) (path : String) : Option Json :=
  if path = "itemId" then some (.string item.id)
  else if path = "itemType" then some (.string item.type)
  else item.field? path

/-- Set a field of the body. -/
def withField (item : Item) (name : String) (value : Json) : Item :=
  { item with body := item.body.insert name value }

/-- Read an item: an object with its id and type once each; all other fields are the body. -/
def ofDocument? : Document → Option Item
  | .object fields => do
    let texts ← Record.ofFields? [["itemId"], ["itemType"]] fields
    let rest ← Document.fieldValues? (fields.filter fun f => f.1 ≠ "itemId" ∧ f.1 ≠ "itemType")
    match texts with
    | [id, type] =>
      return {
        id := ← Document.required Document.string? id
        type := ← Document.required Document.string? type
        body := Fields.sorted rest }
    | _ => none
  | _ => none

/-- Write an item: the id, the type, then the body. -/
def toJson (item : Item) : Json :=
  .object (("itemId", .string item.id) :: ("itemType", .string item.type) :: item.body)

/-- Whether a field of the body is named like the id or the type. -/
def isReserved (name : String) : Bool := name = "itemId" ∨ name = "itemType"

end Item

end Clickstream
