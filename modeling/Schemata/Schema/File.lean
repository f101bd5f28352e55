import Schemata.Files
import Schemata.Schema.Document

/-!
# Schema files
-/

namespace Schemata.Schema

/-- The entry for a schema file that is about to be read. -/
def loading (path : String) : Event :=
  { level := .trace, message := "Loading schema from file: " ++ Text.quotePath path }

/-- Load a schema from a file in the format that its name tells. -/
def loadFile (files : Files) (path : String) : Progress SchemaError Schema :=
  (Progress.step {} (loading path)).andThen fun blank =>
    match files.readText path with
    | .error reason =>
      .fail blank (.invalidFormat ("cannot read '" ++ path ++ "': " ++ reason))
    | .ok text => load (.ofPath path) text

end Schemata.Schema
