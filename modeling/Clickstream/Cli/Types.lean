import Clickstream.Cli.Command
import Clickstream.Cli.Program

/-! # Listing types

One line for every registered type of a kind, with its declared tags. Condition, action and value
types come by id, property types group by group.
-/

namespace Clickstream.Cli

structure TypeRow where
  id : String
  tags : IdSet
  /-- What else there is to say. -/
  detail : String := ""

namespace TypeRow

/-- The line for a condition type. -/
def ofConditionType (r : Registry) (t : ConditionType) : TypeRow where
  id := t.id
  tags := t.tagIds
  detail := (r.classify t).category.text

/-- The line for an action type. -/
def ofActionType (t : ActionType) : TypeRow where
  id := t.id
  tags := t.tagIds

/-- The line for a value type. -/
def ofValueType (t : ValueType) : TypeRow where
  id := t.id
  tags := t.tagIds

/-- The line for a property type. -/
def ofPropertyType (t : PropertyType) : TypeRow where
  id := t.id
  tags := t.tagIds
  detail := t.groupId ++ " / " ++ t.valueTypeId

/-- The columns, the detail without padding. -/
def columns (id tags detail : String) : String :=
  padRight 36 id ++ " " ++ padRight 36 tags ++ " " ++ detail

def text (row : TypeRow) : String :=
  columns (truncated 34 row.id) (truncated 34 (",".intercalate row.tags.toList)) row.detail

end TypeRow

/-- The lines for the types of a kind. -/
def typeRows (r : Registry) (kind : TypeKind) (tag : Option String) (recursive : Bool) :
    List TypeRow :=
  match kind, tag with
  | .condition, none => r.definitions.conditionTypes.values.map (TypeRow.ofConditionType r)
  | .condition, some tag =>
    (r.conditionTypesByTag tag recursive).map fun (_, t) => TypeRow.ofConditionType r t
  | .action, none => r.definitions.actionTypes.values.map TypeRow.ofActionType
  | .action, some tag =>
    (r.actionTypesByTag tag recursive).map fun (_, t) => TypeRow.ofActionType t
  | .value, none => r.definitions.valueTypes.values.map TypeRow.ofValueType
  | .value, some tag =>
    (r.valueTypesByTag tag recursive).map fun (_, t) => TypeRow.ofValueType t
  | .property, _ =>
    r.groups.flatMap fun group =>
      ((r.groupMembers? group.group.id).getD []).map TypeRow.ofPropertyType

/-- The title of the last column. -/
def TypeKind.detailTitle : TypeKind → String
  | condition => "CATEGORY"
  | property => "GROUP / VALUE TYPE"
  | action | value => ""

/-- Print the types of a kind. -/
def printTypes (config : ServerConfig) (kind : TypeKind) (tag : Option String)
    (recursive : Bool) : Program Unit := do
  if kind = .property ∧ tag.isSome then
    Program.fail "property types are listed by group, --tag is not supported"
  Program.openServer config
  match typeRows (← get).engine.registry kind tag recursive with
  | [] => Program.printLine ("No " ++ kind.text ++ " types found.")
  | rows =>
    Program.print (lines (TypeRow.columns "ID" "TAGS" kind.detailTitle :: rule 94
      :: rows.map TypeRow.text))
    Program.print ("\n" ++ toString rows.length ++ " type(s) total.\n")

end Clickstream.Cli
