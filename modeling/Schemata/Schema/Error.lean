import Schemata.Text.Outline

/-!
# Why a schema is refused
-/

namespace Schemata

/-- Why building or loading a schema stops. -/
inductive SchemaError where
  /-- The schema has a table of this name already. -/
  | duplicateTable (name : String)
  /-- The table has a field of this name already. -/
  | duplicateField (table field : String)
  /-- The table has no field of this name. -/
  | unknownField (table field : String)
  /-- A table or a field may not have this name. -/
  | invalidName (kind reason : String)
  /-- The document is not a schema document. -/
  | invalidFormat (detail : String)
  deriving DecidableEq, Repr

namespace SchemaError

/-- The message of an error. -/
def message : SchemaError → String
  | duplicateTable name => "Duplicate table name: " ++ name
  | duplicateField table field =>
    "Duplicate field name '" ++ field ++ "' in table '" ++ table ++ "'"
  | unknownField table field => "Unknown field '" ++ field ++ "' in table '" ++ table ++ "'"
  | invalidName kind reason => "Invalid " ++ kind ++ " name: " ++ reason
  | invalidFormat detail => "Invalid schema format: " ++ detail

open Text (Outline)

/-- The error with its parts, for diagnostics. -/
def outline : SchemaError → Outline
  | duplicateTable name => .record "DuplicateTable" [("name", .text name)] true
  | duplicateField table field =>
    .record "DuplicateField" [("table", .text table), ("field", .text field)] true
  | unknownField table field =>
    .record "UnknownField" [("table", .text table), ("field", .text field)] true
  | invalidName kind reason =>
    .record "InvalidName" [("kind", .text kind), ("reason", .text reason)] true
  | invalidFormat detail => .tuple "InvalidFormat" [.text detail]

end SchemaError

end Schemata
