import Schemata.Schema.Basic

/-!
# Drafts

A draft is a schema as a document describes it, before anything was checked. `Draft.build` adds its
tables and fields one by one, so a draft is refused where the same additions would be.
-/

namespace Schemata

/-- A table as a document describes it. -/
structure TableDraft where
  name : String
  fields : List Field := []
  primaryKey : Option String := none
  deriving DecidableEq, Repr

/-- A schema as a document describes it. -/
structure Draft where
  name : String := ""
  tables : List TableDraft := []
  deriving DecidableEq, Repr

namespace TableDraft

/-- The key to register: the one the draft names, else the last flagged field. -/
def key? (draft : TableDraft) : Option String :=
  draft.primaryKey <|> (draft.fields.reverse.find? (·.isPrimaryKey)).map (·.name)

/-- Fill an empty table with the draft's fields and register its key. -/
def fill (draft : TableDraft) (table : Table) : Progress SchemaError Table :=
  (Progress.through Table.addField table draft.fields).andThen fun filled =>
    match draft.key? with
    | none => .pure filled
    | some key => filled.setPrimaryKey key

end TableDraft

namespace Draft

/-- Add the table that a draft describes. -/
def addTable (schema : Schema) (draft : TableDraft) : Progress SchemaError Schema :=
  (schema.addTable draft.name).andThen (·.onLastTable draft.fill)

/-- The entry for a schema that was built in full. -/
def loaded (schema : Schema) : Event :=
  { level := .debug
    message := "Loaded schema '" ++ schema.name ++ "'"
    fields := [("tables", toString schema.tables.length)] }

/-- Build the schema of a draft. -/
def build (draft : Draft) : Progress SchemaError Schema :=
  (Progress.through addTable { name := draft.name } draft.tables).emit loaded

end Draft

end Schemata
