import Schemata.Document.Json.Decoding
import Schemata.Document.Yaml.Decoding

/-!
# Document formats
-/

namespace Schemata

/-- A format of documents. -/
inductive Format where
  | json
  | yaml
  deriving DecidableEq, Repr

namespace Format

/-- The short name of a format. -/
def name : Format → String
  | json => "json"
  | yaml => "yaml"

/-- Decode a text, or say why it cannot be decoded. -/
def decode {α : Type} (format : Format) (decoder : {σ φ : Type} → Decoder σ φ α) (text : String) :
    Except String α :=
  match format with
  | json => (Json.decode decoder text).mapError fun issue => "JSON parse error: " ++ Json.message issue
  | yaml => (Yaml.decode decoder text).mapError fun issue => "YAML parse error: " ++ Yaml.message issue

/-- The last part of a path. -/
def fileName (path : String) : List Char :=
  (path.toList.reverse.takeWhile (· != '/')).reverse

/-- What follows the last point of a file name, unless the name only starts with it. -/
def extension? (path : String) : Option String :=
  let reversed := (fileName path).reverse
  match reversed.dropWhile (· != '.') with
  | '.' :: _ :: _ => some (String.ofList (reversed.takeWhile (· != '.')).reverse)
  | _ => none

/-- The format of a file: YAML under its two usual extensions, JSON under any other name. -/
def ofPath (path : String) : Format :=
  if extension? path = some "yaml" ∨ extension? path = some "yml" then yaml else json

end Format

end Schemata
