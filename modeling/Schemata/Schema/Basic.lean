import Schemata.Journal
import Schemata.Schema.Error

/-!
# Schemas

A schema is an ordered list of tables, a table an ordered list of fields with at most one registered
key. Tables and fields are added at the end under fresh, non-empty names. An operation that is
refused changes nothing; one that adds something says so in the journal.
-/

namespace Schemata

/-- A column of a table. -/
structure Field where
  name : String
  dataType : String
  isPrimaryKey : Bool := false
  /-- `none` leaves the column without a default, which is not the same as an empty one. -/
  defaultValue : Option String := none
  deriving DecidableEq, Repr

/-- A named list of columns. -/
structure Table where
  name : String
  fields : List Field := []
  /-- The column registered as key. -/
  primaryKey : Option String := none
  deriving DecidableEq, Repr

/-- A named list of tables. -/
structure Schema where
  name : String := ""
  tables : List Table := []
  /-- An advisory message that is not part of the schema's document; empty when there is none. -/
  error : String := ""
  deriving DecidableEq, Repr

namespace Table

/-- The first field of a name. -/
def field? (table : Table) (name : String) : Option Field :=
  table.fields.find? (·.name == name)

/-- Whether some field has the name. -/
def hasField (table : Table) (name : String) : Bool :=
  (table.field? name).isSome

/-- The entry for a field that was added to a table. -/
def fieldAdded (table field : String) : Event :=
  { level := .trace, message := "adding field", fields := [("table", table), ("field", field)] }

/-- Add a field at the end. -/
def addField (table : Table) (field : Field) : Progress SchemaError Table :=
  if field.name.isEmpty then
    .fail table (.invalidName "field" ("empty field name in table '" ++ table.name ++ "'"))
  else if table.hasField field.name then
    .fail table (.duplicateField table.name field.name)
  else
    .step { table with fields := table.fields ++ [field] } (fieldAdded table.name field.name)

/-- Change the first field of a name. -/
def updateFirst (name : String) (change : Field → Field) : List Field → List Field
  | [] => []
  | field :: rest =>
    if field.name == name then change field :: rest else field :: updateFirst name change rest

/-- Register a field as the key, in place of an earlier one, and flag it. -/
def setPrimaryKey (table : Table) (name : String) : Progress SchemaError Table :=
  if table.hasField name then
    .pure { table with
      fields := updateFirst name (fun field => { field with isPrimaryKey := true }) table.fields
      primaryKey := some name }
  else
    .fail table (.unknownField table.name name)

/-- Overwrite the field added last, without any check. -/
def amendLast (table : Table) (change : Field → Field) : Table :=
  { table with fields := table.fields.dropLast ++ (table.fields.getLast?.map change).toList }

end Table

namespace Schema

/-- The first table of a name. -/
def table? (schema : Schema) (name : String) : Option Table :=
  schema.tables.find? (·.name == name)

/-- Whether some table has the name. -/
def hasTable (schema : Schema) (name : String) : Bool :=
  (schema.table? name).isSome

/-- The names of the tables in order. -/
def tableNames (schema : Schema) : List String :=
  schema.tables.map (·.name)

/-- The entry for a table that was added. -/
def tableAdded (name : String) : Event :=
  { level := .trace, message := "adding table", fields := [("table", name)] }

/-- Add an empty table at the end. -/
def addTable (schema : Schema) (name : String) : Progress SchemaError Schema :=
  if name.isEmpty then .fail schema (.invalidName "table" "name is empty")
  else if schema.hasTable name then .fail schema (.duplicateTable name)
  else .step { schema with tables := schema.tables ++ [{ name }] } (tableAdded name)

/-- Work on the table added last; a schema without tables is left alone. -/
def onLastTable (schema : Schema) (work : Table → Progress SchemaError Table) :
    Progress SchemaError Schema :=
  match schema.tables.getLast? with
  | none => .pure schema
  | some table =>
    (work table).map fun reached =>
      { schema with tables := schema.tables.dropLast ++ [reached] }

/-- Record an advisory message in place of an earlier one. -/
def setError (schema : Schema) (message : String) : Schema :=
  { schema with error := message }

end Schema

end Schemata
