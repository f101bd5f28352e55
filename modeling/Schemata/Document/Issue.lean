import Schemata.Text.Quoted

/-!
# Why a document does not decode

An issue is a cause and the way from the root of the document to the place where it shows.
-/

namespace Schemata

/-- One step from a value to a part of it. -/
inductive Step where
  | key (name : String)
  | index (position : Nat)
  /-- The key is a reference, so the step has no name. -/
  | unknown
  deriving DecidableEq, Repr

/-- The steps from the root, the last one first. -/
abbrev Path := List Step

namespace Path

/-- A path as text: keys after points, positions in brackets. -/
def render : Path → String
  | [] => ""
  | .key name :: rest => (if rest.isEmpty then "" else render rest ++ ".") ++ name
  | .unknown :: rest => (if rest.isEmpty then "" else render rest ++ ".") ++ "?"
  | .index position :: rest =>
    (if rest.isEmpty then "." else render rest) ++ "[" ++ toString position ++ "]"

end Path

/-- Why a document does not decode. Faults `φ` are those of the text itself. -/
inductive Cause (φ : Type) where
  /-- The text is not a document. -/
  | fault (fault : φ)
  /-- A value of one kind stands where another is expected. -/
  | mismatch (found expected : String)
  /-- A value of the right kind is refused. -/
  | refused (found expected : String)
  /-- A list ends before it has an item for every required field. -/
  | tooShort (length : Nat) (expected : String)
  | missingField (name : String)
  | duplicateField (name : String)
  /-- The text of a field means nothing to it. -/
  | rejected (reason : String)
  /-- References were followed more often than the document's size allows. -/
  | repetition
  deriving DecidableEq, Repr

/-- The message of a cause, given the messages of faults. -/
def Cause.message {φ : Type} (fault : φ → String) : Cause φ → String
  | .fault reason => fault reason
  | mismatch found expected => "invalid type: " ++ found ++ ", expected " ++ expected
  | refused found expected => "invalid value: " ++ found ++ ", expected " ++ expected
  | tooShort length expected =>
    "invalid length " ++ toString length ++ ", expected " ++ expected
  | missingField name => "missing field `" ++ name ++ "`"
  | duplicateField name => "duplicate field `" ++ name ++ "`"
  | rejected reason => reason
  | repetition => "repetition limit exceeded"

/-- Whether the message of a cause is told together with its place. -/
def Cause.hasPlace {φ : Type} : Cause φ → Bool
  | .fault _ => false
  | repetition => false
  | _ => true

/-- A cause and its place. -/
structure Issue (φ : Type) where
  path : Path
  cause : Cause φ
  deriving DecidableEq, Repr

end Schemata
