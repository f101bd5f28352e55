import Schemata.Document.Decoder
import Schemata.Document.Yaml.Reader
import Schemata.Document.Yaml.Scalar

/-!
# Decoding YAML

What the scalars of a YAML document stand for, and the decoding of whole texts. Any scalar may be
read as a text. An empty plain scalar stands for a list or an object without content, and where a
text may be absent, a plain scalar that is empty or written like null stands for nothing. Issues are
told with their place.
-/

namespace Schemata.Yaml

open Text (quote)

/-- The tag of a truth value. -/
def flagTag : String := "tag:yaml.org,2002:bool"

/-- The tag of an integer. -/
def integerTag : String := "tag:yaml.org,2002:int"

/-- The tag of a double. -/
def realTag : String := "tag:yaml.org,2002:float"

/-- The tag of the null value. -/
def nullTag : String := "tag:yaml.org,2002:null"

namespace Meaning

/-- How a message names what a scalar stands for. -/
def kind (text : String) : Meaning → String
  | null => "unit value"
  | flag value => "boolean `" ++ toString value ++ "`"
  | integer value =>
    "integer `" ++ toString value ++ "`" ++
      if Int.pow 2 64 ≤ value then " as u128" else if value < -Int.pow 2 63 then " as i128" else ""
  | real value => "floating point `" ++ Scalar.showReal value ++ "`"
  | .text => "string " ++ quote text

end Meaning

namespace Scalar

/-- What a scalar stands for where any value may stand; a tag of a kind that its text does not have
is refused, and then the kind is told. -/
def meaningOf (scalar : Scalar) : Except String Meaning :=
  let plainMeaning := if scalar.style = .plain then meaning scalar.text else .text
  match scalar.tag with
  | none => .ok plainMeaning
  | some tag =>
    if tag = flagTag then
      ((flag? scalar.text).map Meaning.flag).elim (.error "a boolean") .ok
    else if tag = integerTag then
      ((integer? scalar.text.toList).map Meaning.integer).elim (.error "an integer") .ok
    else if tag = realTag then
      ((real? scalar.text.toList).map Meaning.real).elim (.error "a float") .ok
    else if tag = nullTag then
      if isNull scalar.text then .ok .null else .error "null"
    else if tag.startsWith "!" then .ok plainMeaning
    else .ok .text

/-- Why a scalar is not what is expected. -/
def mismatch (expected : String) (scalar : Scalar) : Cause Fault :=
  match scalar.meaningOf with
  | .ok meaning => .mismatch (meaning.kind scalar.text) expected
  | .error kind => .refused ("string " ++ quote scalar.text) kind

/-- Whether a scalar stands for nothing where a text may be absent. -/
def absent (scalar : Scalar) : Except (Cause Fault) Bool :=
  if scalar.style ≠ .plain then .ok false
  else
    match scalar.tag with
    | none => .ok (scalar.text.isEmpty || isNull scalar.text)
    | some tag =>
      if tag ≠ nullTag then .ok false
      else if isNull scalar.text then .ok true
      else .error (.refused ("string " ++ quote scalar.text) "null")

/-- The truth value of a scalar where one is expected. -/
def truth (scalar : Scalar) : Except (Cause Fault) Bool :=
  let mayBe := scalar.style = .plain ∨ (scalar.style = .literal ∧ scalar.tag = some flagTag)
  match if mayBe then flag? scalar.text else none with
  | some value => .ok value
  | none => .error (mismatch "a boolean" scalar)

end Scalar

/-- The scalars of YAML. -/
def dialect : Dialect Leaf Fault where
  text _
    | .scalar scalar => .ok scalar.text
    | .broken fault => .error (.fault fault)
  absent
    | .scalar scalar => scalar.absent
    | .broken fault => .error (.fault fault)
  flag
    | .scalar scalar => scalar.truth
    | .broken fault => .error (.fault fault)
  mismatch expected
    | .scalar scalar => scalar.mismatch expected
    | .broken fault => .fault fault
  isEmpty
    | .scalar scalar => scalar.style = .plain ∧ scalar.text.isEmpty
    | .broken _ => false
  fault?
    | .scalar _ => none
    | .broken fault => some fault
  surplus? := none

/-- The message of a text that is not a document at all. -/
def malformedMessage : String := "malformed document"

/-- The message of a fault. -/
def Fault.message : Fault → String
  | malformed => malformedMessage
  | unknownAnchor => "unknown anchor"
  | moreDocuments =>
    "deserializing from YAML containing more than one document is not supported"

/-- The message of an issue. -/
def message (issue : Issue Fault) : String :=
  let text := issue.cause.message Fault.message
  if issue.path.isEmpty || !issue.cause.hasPlace then text
  else Path.render issue.path ++ ": " ++ text

/-- How many references may be followed for each part of a document. -/
def referencesPerPart : Nat := 100

/-- Decode a whole text. -/
def decode {α : Type} (decoder : Decoder Leaf Fault α) (text : String) :
    Except (Issue Fault) α :=
  let document := Document.read text.toList
  let scope : Scope Leaf Fault :=
    { dialect, anchor? := document.node?, limit := document.size * referencesPerPart }
  match (decoder scope [] document.root).run 0 with
  | .error issue => .error issue
  | .ok (value, _) =>
    match document.after with
    | some fault => .error { path := [], cause := .fault fault }
    | none => .ok value

end Schemata.Yaml
