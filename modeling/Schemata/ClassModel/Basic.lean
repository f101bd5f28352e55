import Schemata.ClassModel.Visibility
import Schemata.Schema.Error

/-!
# Class models

A class model names classes and their attributes. Every part of it is optional in a document; what is
not given is empty, absent or public.
-/

namespace Schemata

/-- An attribute of a class. -/
structure Attribute where
  name : String := ""
  dataType : String := ""
  stereotype : Option String := none
  initialValue : Option String := none
  visibility : Visibility := .public
  deriving DecidableEq, Repr

/-- A class. -/
structure ModelClass where
  name : String := ""
  visibility : Visibility := .public
  attributes : List Attribute := []
  deriving DecidableEq, Repr

/-- A class model. Its name becomes the name of the schema drawn from it. -/
structure ClassModel where
  name : String := ""
  classes : List ModelClass := []
  deriving DecidableEq, Repr

/-- Why a class model is refused. -/
inductive ModelError where
  /-- The text is not a class model. -/
  | invalidModel (detail : String)
  /-- The text names no visibility. -/
  | unknownVisibility (text : String)
  /-- The tables drawn from the model do not form a schema. -/
  | schema (error : SchemaError)
  deriving DecidableEq, Repr

/-- The message of an error. -/
def ModelError.message : ModelError → String
  | invalidModel detail => "Invalid class model: " ++ detail
  | unknownVisibility text => Visibility.unknownMessage text
  | schema error => error.message

end Schemata
