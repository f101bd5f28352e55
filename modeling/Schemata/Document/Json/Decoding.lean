import Schemata.Document.Decoder
import Schemata.Document.Json.Reader

/-!
# Decoding JSON

What the scalars of a JSON document stand for, and the decoding of whole texts. A list may stand for
a record. Issues are told without their place.
-/

namespace Schemata.Json

open Text (quote)

/-- Why a scalar is not what is expected. -/
def mismatch (expected : String) : Leaf → Cause Fault
  | .null => .mismatch "null" expected
  | .flag value => .mismatch ("boolean `" ++ toString value ++ "`") expected
  | .number (.ok number) => .mismatch number.kind expected
  | .number (.error fault) => .fault fault
  | .text (.ok content) => .mismatch ("string " ++ quote content) expected
  | .text (.error fault) => .fault fault
  | .broken fault _ => .fault fault

/-- The fault of an item beyond the fields of a record. -/
def surplus : Tree Leaf .value → Fault
  | .leaf (.broken .endInList _) => .endInList
  | .leaf (.broken .trailingComma _) => .trailingComma
  | _ => .trailingCharacters

/-- The scalars of JSON. -/
def dialect : Dialect Leaf Fault where
  text expected
    | .text (.ok content) => .ok content
    | other => .error (mismatch expected other)
  absent
    | .null => .ok true
    | _ => .ok false
  flag
    | .flag value => .ok value
    | other => .error (mismatch "a boolean" other)
  mismatch := mismatch
  isEmpty _ := false
  fault?
    | .broken _ passed => some passed
    | _ => none
  surplus? := some surplus

/-- The message of an issue. -/
def message (issue : Issue Fault) : String :=
  issue.cause.message Fault.message

/-- Decode a whole text. -/
def decode {α : Type} (decoder : Decoder Leaf Fault α) (text : String) :
    Except (Issue Fault) α :=
  let document := read text.toList
  match (decoder { dialect, anchor? := fun _ => none, limit := 0 } [] document.root).run 0 with
  | .error issue => .error issue
  | .ok (value, _) =>
    match document.after with
    | some fault => .error { path := [], cause := .fault fault }
    | none => .ok value

end Schemata.Json
