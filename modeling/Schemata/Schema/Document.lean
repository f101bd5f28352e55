import Schemata.Document.Format
import Schemata.Document.Value
import Schemata.Schema.Draft

/-!
# Schema documents

How a schema is written as a document and loaded from one. What is written leaves out an empty name,
a missing key, an unset flag and a missing default; the advisory message is never written. What is
loaded goes through the same additions as any other schema.
-/

namespace Schemata

namespace Field

/-- A field as a document shows it. -/
def document (field : Field) : Value :=
  .object <|
    [("name", .text field.name), ("data_type", .text field.dataType)] ++
      (if field.isPrimaryKey then [("is_primary_key", .flag true)] else []) ++
      Value.whenSome "default_value" field.defaultValue

/-- How a field is read. -/
def form {σ φ : Type} : RecordForm σ φ Field where
  title := "FieldFile"
  start := { name := "", dataType := "" }
  fields :=
    [(.needed (.of "name" .text fun field name => { field with name })),
     (.needed (.orNamed (.of "data_type" .text fun field dataType => { field with dataType }) "type")),
     (.of "is_primary_key" .flag fun field isPrimaryKey => { field with isPrimaryKey }),
     (.of "default_value" .optionalText fun field defaultValue => { field with defaultValue })]

end Field

namespace Table

/-- A table as a document shows it. -/
def document (table : Table) : Value :=
  .object <|
    [("name", .text table.name), ("fields", .list (table.fields.map Field.document))] ++
      Value.whenSome "primary_key" table.primaryKey

end Table

/-- How a table is read. -/
def TableDraft.form {σ φ : Type} : RecordForm σ φ TableDraft where
  title := "TableFile"
  start := { name := "" }
  fields :=
    [(.needed (.of "name" .text fun draft name => { draft with name })),
     (.of "fields" (.list Field.form.decode) fun draft fields => { draft with fields }),
     (.of "primary_key" .optionalText fun draft primaryKey => { draft with primaryKey })]

/-- How a schema is read. -/
def Draft.form {σ φ : Type} : RecordForm σ φ Draft where
  title := "SchemaFile"
  start := {}
  fields :=
    [(.of "name" .text fun draft name => { draft with name }),
     (.of "tables" (.list TableDraft.form.decode) fun draft tables => { draft with tables })]

namespace Schema

/-- A schema as a document shows it. -/
def document (schema : Schema) : Value :=
  .object <|
    (if schema.name.isEmpty then [] else [("name", .text schema.name)]) ++
      [("tables", .list (schema.tables.map Table.document))]

/-- Load a schema from the text of a document. What was built is of no use after a failure. -/
def load (format : Format) (text : String) : Progress SchemaError Schema :=
  match format.decode Draft.form.decode text with
  | .error detail => .fail {} (.invalidFormat detail)
  | .ok draft => draft.build

end Schema

end Schemata
