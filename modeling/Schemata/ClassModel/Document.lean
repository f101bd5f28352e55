import Schemata.ClassModel.Basic
import Schemata.Document.Format
import Schemata.Document.Value
import Schemata.Journal
import Schemata.Text.Whitespace

/-!
# Class model documents

A class model is read from JSON when its first character other than white space is a brace, and from
YAML otherwise.
-/

namespace Schemata

/-- A visibility. A text that names none is blamed on the record around it. -/
def Visibility.decode {σ φ : Type} : Decoder σ φ Visibility := fun scope path tree => do
  let text ← Decoder.text scope path tree
  match ofText? text with
  | some visibility => pure visibility
  | none => .fail path.tail (.rejected (unknownMessage text))

namespace Attribute

/-- How an attribute is read. -/
def form {σ φ : Type} : RecordForm σ φ Attribute where
  title := "Attribute"
  start := {}
  fields :=
    [(.of "name" .text fun item name => { item with name }),
     (.orNamed (.of "datatype" .text fun item dataType => { item with dataType }) "type"),
     (.of "stereotype" .optionalText fun item stereotype => { item with stereotype }),
     (.of "initial_value" .optionalText fun item initialValue => { item with initialValue }),
     (.of "visibility" Visibility.decode fun item visibility => { item with visibility })]

/-- An attribute as a document shows it. -/
def document (item : Attribute) : Value :=
  .object
    [("name", .text item.name),
     ("datatype", .text item.dataType),
     ("stereotype", .optional item.stereotype),
     ("initial_value", .optional item.initialValue),
     ("visibility", .text item.visibility.name)]

end Attribute

namespace ModelClass

/-- How a class is read. -/
def form {σ φ : Type} : RecordForm σ φ ModelClass where
  title := "Class"
  start := {}
  fields :=
    [(.of "name" .text fun node name => { node with name }),
     (.of "visibility" Visibility.decode fun node visibility => { node with visibility }),
     (.of "attributes" (.list Attribute.form.decode) fun node attributes => { node with attributes })]

/-- A class as a document shows it. -/
def document (node : ModelClass) : Value :=
  .object
    [("name", .text node.name),
     ("visibility", .text node.visibility.name),
     ("attributes", .list (node.attributes.map Attribute.document))]

end ModelClass

namespace ClassModel

/-- How a class model is read. -/
def form {σ φ : Type} : RecordForm σ φ ClassModel where
  title := "ObjectGraph"
  start := {}
  fields :=
    [(.of "name" .text fun model name => { model with name }),
     (.of "classes" (.list ModelClass.form.decode) fun model classes => { model with classes })]

/-- A class model as a document shows it. -/
def document (model : ClassModel) : Value :=
  .object
    [("name", .text model.name), ("classes", .list (model.classes.map ModelClass.document))]

/-- The format of a class model's text. -/
def formatOf (text : String) : Format :=
  if (Text.trimStart text.toList).head? = some '{' then .json else .yaml

/-- The entry for a class model that was read. -/
def readEvent (model : ClassModel) : Event :=
  { level := .debug
    message := "read class model '" ++ model.name ++ "'"
    fields := [("classes", toString model.classes.length)] }

/-- Read a class model. -/
def read (text : String) : Except ModelError ClassModel :=
  ((formatOf text).decode form.decode text).mapError .invalidModel

end ClassModel

end Schemata
