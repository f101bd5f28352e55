import Schemata.ClassModel.Basic
import Schemata.Schema.Basic

/-!
# Drawing tables from a class model

Every named class that the filter admits becomes a table, every named attribute it admits a field,
and an attribute with the key stereotype the table's key. The first refusal ends the run; what was
added before it stays.
-/

namespace Schemata

/-- The stereotype that marks a key, compared exactly. -/
def keyStereotype : String := "PK"

namespace Attribute

/-- Whether the attribute is marked as a key. -/
def isKey (item : Attribute) : Bool :=
  item.stereotype == some keyStereotype

/-- Whether a filter lets the attribute become a field. -/
def taken (item : Attribute) (filter : Option Visibility) : Bool :=
  !item.name.isEmpty && item.visibility.admittedBy filter

/-- The field that stands for the attribute. -/
def field (item : Attribute) : Field :=
  { name := item.name
    dataType := item.dataType
    isPrimaryKey := item.isKey
    defaultValue := item.initialValue }

/-- The entry for an attribute that becomes no field. -/
def skipped (item : Attribute) (className : String) : Event :=
  { level := .trace
    message := "attribute skipped"
    fields := [("class", className), ("attribute", item.name)] }

/-- Add the attribute's field to the table of its class. -/
def extract (filter : Option Visibility) (className : String) (table : Table)
    (item : Attribute) : Progress SchemaError Table :=
  if item.taken filter then
    (table.addField item.field).andThen fun added =>
      if item.isKey then added.setPrimaryKey item.name else .pure added
  else
    .step table (item.skipped className)

end Attribute

namespace ModelClass

/-- The entry for a class without a name. -/
def unnamed : Event :=
  { level := .trace, message := "skipping unnamed class" }

/-- The entry for a class that the filter keeps out. -/
def filteredOut (node : ModelClass) : Event :=
  { level := .debug
    message := "class filtered out"
    fields := [("class", node.name), ("visibility", node.visibility.name)] }

/-- The entry for a table that is complete. -/
def extracted (table : Table) : Event :=
  { level := .debug
    message := "extracted table"
    fields := [("table", table.name), ("fields", toString table.fields.length)] }

/-- Fill the new table of a class. -/
def fill (filter : Option Visibility) (node : ModelClass) (table : Table) :
    Progress SchemaError Table :=
  (Progress.through (Attribute.extract filter node.name) table node.attributes).emit extracted

/-- Add the table of a class. -/
def extract (filter : Option Visibility) (schema : Schema) (node : ModelClass) :
    Progress SchemaError Schema :=
  if node.name.isEmpty then .step schema unnamed
  else if node.visibility.admittedBy filter then
    (schema.addTable node.name).andThen (·.onLastTable (node.fill filter))
  else .step schema node.filteredOut

end ModelClass

/-- Add the tables of a class model to a schema. The model's own name plays no part. -/
def ClassModel.extract (model : ClassModel) (filter : Option Visibility) (schema : Schema) :
    Progress SchemaError Schema :=
  Progress.through (ModelClass.extract filter) schema model.classes

end Schemata
