import Clickstream.Condition

/-! # What can go wrong in a store

Each cause with its wording. The texts of files that cannot be read and of documents that do not
parse come from elsewhere and are not spelled out.
-/

namespace Clickstream

/-- Why the parameters of a condition cannot be used. -/
inductive InvalidCondition where
  /-- An operator that combines no conditions. -/
  | unknownOperator (operator : String)
  | missingSubCondition
  /-- A text parameter that has to be there. -/
  | missingParameter (name : String)
  /-- A parameter that should hold conditions does not. -/
  | malformed (cause : MalformedCondition)
  /-- A comparison without a value to compare with. -/
  | missingValue (operator : String)
  /-- A range without exactly two ends. -/
  | missingRange
  /-- A comparison that is not known. -/
  | unknownComparison (operator : String)

def InvalidCondition.message : InvalidCondition → String
  | unknownOperator operator => "unknown operator '" ++ operator ++ "'"
  | missingSubCondition => "missing subCondition"
  | missingParameter name => "missing " ++ name
  | malformed cause => cause.message
  | missingValue operator => "'" ++ operator ++ "' needs a property value"
  | missingRange => "'between' needs two propertyValues"
  | unknownComparison operator => "unknown comparison operator '" ++ operator ++ "'"

/-- An error of a store. -/
inductive StoreError where
  /-- A file or directory cannot be read or written. -/
  | io (path : String)
  /-- A document does not hold what it should. -/
  | serialization
  /-- No predicate has this name. -/
  | unsupportedCondition (evaluator : String)
  /-- A condition of this type cannot be interpreted. -/
  | invalidCondition (typeId : String) (cause : InvalidCondition)
  /-- An item was read as an entity of another type. -/
  | wrongItemType (expected found : String)

def StoreError.message : StoreError → String
  | io path => "I/O error at " ++ path ++ ": cannot be used"
  | serialization => "serialization error: " ++ Document.misfit
  | unsupportedCondition evaluator => "unsupported condition type '" ++ evaluator ++ "'"
  | invalidCondition typeId cause => "invalid condition '" ++ typeId ++ "': " ++ cause.message
  | wrongItemType expected found => "expected a " ++ expected ++ " item, found " ++ found

end Clickstream
