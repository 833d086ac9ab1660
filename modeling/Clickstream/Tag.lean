import Clickstream.Document
import Clickstream.Decimal.Double

/-! # Tags

Tags classify the types that modules contribute. They are ordered by rank and then by id, and
equality of tags in one taxonomy is equality of their ids.
-/

namespace Clickstream

/-- The name of the module that contributed a definition. -/
abbrev ModuleId := String

structure Tag where
  id : String
  /-- Overrides the localization key of the name. -/
  nameKey : Option String := none
  /-- Overrides the localization key of the description. -/
  descriptionKey : Option String := none
  /-- The declared parent; an empty one counts as none. -/
  parentId : Option String := none
  /-- The place among its siblings. -/
  rank : Float := 0.0
  /-- Not for display. -/
  hidden : Bool := false
  moduleId : Option ModuleId := none
  deriving DecidableEq, Inhabited

namespace Tag

/-- The localization key of the name. -/
def nameKeyText (t : Tag) : String := t.nameKey.getD ("tag." ++ t.id ++ ".name")

/-- The localization key of the description. -/
def descriptionKeyText (t : Tag) : String :=
  t.descriptionKey.getD ("tag." ++ t.id ++ ".description")

/-- The declared parent, unless it is empty. -/
def parent? (t : Tag) : Option String := t.parentId.filter (· ≠ "")

/-- Whether no parent is declared. -/
def isRoot (t : Tag) : Bool := t.parent?.isNone

/-- Whether one tag comes no later than another: by rank, then by id. -/
def le (a b : Tag) : Bool :=
  let x := Decimal.orderKey a.rank
  let y := Decimal.orderKey b.rank
  x < y ∨ (x = y ∧ a.id ≤ b.id)

/-- The order of two tags. -/
def order (a b : Tag) : Ordering :=
  if a.le b then if b.le a then .eq else .lt else .gt

def ofDocument? (d : Document) : Option Tag := do
  match ← d.record? [["id"], ["nameKey"], ["descriptionKey"], ["parent", "parentId"], ["rank"],
      ["hidden"]] with
  | [id, nameKey, descriptionKey, parent, rank, hidden] =>
    return {
      id := ← Document.required Document.string? id
      nameKey := ← Document.optional Document.string? nameKey
      descriptionKey := ← Document.optional Document.string? descriptionKey
      parentId := ← Document.optional Document.string? parent
      rank := ← Document.defaulting 0.0 Document.double? rank
      hidden := ← Document.defaulting false Document.bool? hidden }
  | _ => none

def toJson (t : Tag) : Json :=
  .object <| [("id", .string t.id)]
    ++ Json.optionalField "nameKey" (t.nameKey.map .string)
    ++ Json.optionalField "descriptionKey" (t.descriptionKey.map .string)
    ++ Json.optionalField "parent" (t.parentId.map .string)
    ++ [("rank", .number (.double t.rank)), ("hidden", .bool t.hidden)]

end Tag

end Clickstream
