import Schemata.Document.Issue
import Schemata.Document.Tree

/-!
# Decoders

How a document tree becomes a value of a type. A decoder walks the tree in document order and stops
at the first issue. What a scalar may stand for is the dialect's; which fields a record has is said
once, by its `RecordForm`, for all dialects.

A record is an object whose known keys are its fields, each at most once; members with other keys
are passed over, and only faults inside them count. Some dialects also take a list for a record, its
items in the order of the fields.
-/

namespace Schemata

/-- What the scalars `σ` of a format stand for. -/
structure Dialect (σ φ : Type) where
  /-- The text of a scalar; the first argument says what is expected. -/
  text : String → σ → Except (Cause φ) String
  /-- The text of a scalar that may also stand for nothing; `none` means that it does. -/
  absent : σ → Except (Cause φ) Bool
  /-- The truth value of a scalar. -/
  flag : σ → Except (Cause φ) Bool
  /-- Why a scalar is not what is expected. -/
  mismatch : String → σ → Cause φ
  /-- Whether a scalar stands for a list or an object without content. -/
  isEmpty : σ → Bool
  /-- The fault of a scalar that is passed over. -/
  fault? : σ → Option φ
  /-- Whether a list may stand for a record, and then the fault of an item that is left over. -/
  surplus? : Option (Tree σ .value → φ)

/-- What a decoder knows beside the tree: the dialect, the values that can be referred to, and how
many references it may follow. -/
structure Scope (σ φ : Type) where
  dialect : Dialect σ φ
  anchor? : Nat → Option (Tree σ .value)
  limit : Nat

/-- A decoding in progress, with the number of references followed so far. -/
abbrev Decoding (φ α : Type) := StateT Nat (Except (Issue φ)) α

/-- From a tree at a place to a value of type `α`. -/
abbrev Decoder (σ φ α : Type) := Scope σ φ → Path → Tree σ .value → Decoding φ α

namespace Decoding

variable {φ α : Type}

/-- Stop at a place. -/
def fail (path : Path) (cause : Cause φ) : Decoding φ α :=
  fun _ => .error { path, cause }

/-- An answer of the dialect, at its place. -/
def ofExcept (path : Path) : Except (Cause φ) α → Decoding φ α
  | .ok value => pure value
  | .error cause => fail path cause

end Decoding

namespace Scope

variable {σ φ : Type}

/-- Follow a reference, and count it. -/
def follow (scope : Scope σ φ) (path : Path) (tree : Tree σ .value) :
    Decoding φ (Tree σ .value) := fun count =>
  match tree with
  | .reference anchor =>
    if scope.limit < count + 1 then .error { path, cause := .repetition }
    else .ok ((scope.anchor? anchor).getD tree, count + 1)
  | other => .ok (other, count)

/-- Pass a tree over. -/
def skip (scope : Scope σ φ) (path : Path) (tree : Tree σ .value) : Decoding φ Unit :=
  match tree.fault? scope.dialect.fault? with
  | some fault => .fail path (.fault fault)
  | none => pure ()

end Scope

namespace Decoder

variable {σ φ α : Type}

/-- What a list or an object is called where something else is expected. -/
def kindOf : Tree σ .value → String
  | .object _ => "map"
  | _ => "sequence"

/-- A text, when `expected` is what the message says. -/
def textAs (expected : String) : Decoder σ φ String := fun scope path tree => do
  match ← scope.follow path tree with
  | .leaf scalar => .ofExcept path (scope.dialect.text expected scalar)
  | other => .fail path (.mismatch (kindOf other) expected)

/-- A text. -/
def text : Decoder σ φ String := textAs "a string"

/-- A text or nothing. A scalar that is neither is blamed on the record around it. -/
def optionalText : Decoder σ φ (Option String) := fun scope path tree => do
  match ← scope.follow path tree with
  | .leaf scalar =>
    if ← .ofExcept path.tail (scope.dialect.absent scalar) then pure none
    else some <$> .ofExcept path (scope.dialect.text "a string" scalar)
  | other => .fail path (.mismatch (kindOf other) "a string")

/-- A truth value. -/
def flag : Decoder σ φ Bool := fun scope path tree => do
  match ← scope.follow path tree with
  | .leaf scalar => .ofExcept path (scope.dialect.flag scalar)
  | other => .fail path (.mismatch (kindOf other) "a boolean")

/-- The items of a list, numbered from `position`. -/
def items (decode : Decoder σ φ α) (scope : Scope σ φ) (path : Path) :
    Nat → Tree σ .items → Decoding φ (List α)
  | _, .noItems => pure []
  | position, .item head rest => do
    let first ← decode scope (.index position :: path) head
    let others ← items decode scope path (position + 1) rest
    pure (first :: others)

/-- A list. -/
def list (decode : Decoder σ φ α) : Decoder σ φ (List α) := fun scope path tree => do
  match ← scope.follow path tree with
  | .leaf scalar =>
    if scope.dialect.isEmpty scalar then pure []
    else .fail path (scope.dialect.mismatch "a sequence" scalar)
  | .list all => items decode scope path 0 all
  | other => .fail path (.mismatch (kindOf other) "a sequence")

/-- The step to the value of a key. -/
def stepTo (name : String) : Tree σ .value → Step
  | .reference _ => .unknown
  | _ => .key name

/-- The members of a table of texts, in order, repeated keys included. -/
def pairs (scope : Scope σ φ) (path : Path) :
    Tree σ .members → Decoding φ (List (String × String))
  | .noMembers => pure []
  | .member key value rest => do
    let name ← text scope path key
    let content ← text scope (stepTo name key :: path) value
    let others ← pairs scope path rest
    pure ((name, content) :: others)

/-- A table of texts. -/
def textPairs : Decoder σ φ (List (String × String)) := fun scope path tree => do
  match ← scope.follow path tree with
  | .leaf scalar =>
    if scope.dialect.isEmpty scalar then pure []
    else .fail path (scope.dialect.mismatch "a map" scalar)
  | .object members => pairs scope path members
  | other => .fail path (.mismatch (kindOf other) "a map")

end Decoder

/-- One field of a record that is gathered in `ρ`. -/
structure FieldForm (σ φ ρ : Type) where
  name : String
  /-- Another key that is read as this field. -/
  otherKey? : Option String := none
  required : Bool := false
  /-- Decode the field and put it into the record. -/
  read : ρ → Decoder σ φ ρ

namespace FieldForm

variable {σ φ ρ α : Type}

/-- A field that is decoded by `decode` and stored by `store`. -/
def of (name : String) (decode : Decoder σ φ α) (store : ρ → α → ρ) : FieldForm σ φ ρ :=
  { name, read := fun record scope path tree => store record <$> decode scope path tree }

/-- The same field under a second key. -/
def orNamed (form : FieldForm σ φ ρ) (key : String) : FieldForm σ φ ρ :=
  { form with otherKey? := some key }

/-- The same field, which has to be given. -/
def needed (form : FieldForm σ φ ρ) : FieldForm σ φ ρ :=
  { form with required := true }

/-- Whether a key is read as this field. -/
def answers (form : FieldForm σ φ ρ) (key : String) : Bool :=
  form.name == key || form.otherKey? == some key

end FieldForm

/-- What a record is called, its fields in order, and the record before any field is read. -/
structure RecordForm (σ φ ρ : Type) where
  title : String
  fields : List (FieldForm σ φ ρ)
  start : ρ

namespace RecordForm

variable {σ φ ρ : Type}

/-- How a message calls the record. -/
def expected (form : RecordForm σ φ ρ) : String := "struct " ++ form.title

/-- The field that a key is read as. -/
def field? (form : RecordForm σ φ ρ) (key : String) : Option (FieldForm σ φ ρ) :=
  form.fields.find? (·.answers key)

/-- End an object: every required field must have been seen. -/
def finish (form : RecordForm σ φ ρ) (path : Path) (seen : List String) (record : ρ) :
    Decoding φ ρ :=
  match form.fields.find? fun field => field.required && !seen.contains field.name with
  | some field => .fail path (.missingField field.name)
  | none => pure record

/-- Read the members of an object, of which the fields in `seen` were read before. A repeated field
is refused at its key. -/
def members (form : RecordForm σ φ ρ) (scope : Scope σ φ) (path : Path) :
    List String → ρ → Tree σ .members → Decoding φ ρ
  | seen, record, .noMembers => form.finish path seen record
  | seen, record, .member key value rest => do
    let name ← Decoder.textAs "field identifier" scope path key
    match form.field? name with
    | none =>
      scope.skip (Decoder.stepTo name key :: path) value
      form.members scope path seen record rest
    | some field =>
      if seen.contains field.name then .fail path (.duplicateField field.name)
      else
        let updated ← field.read record scope (Decoder.stepTo name key :: path) value
        form.members scope path (field.name :: seen) updated rest

/-- Read the items of a list as the fields in order. Fields at the end may be left out unless they
are required; items beyond the fields are a fault. -/
def positions (form : RecordForm σ φ ρ) (scope : Scope σ φ) (path : Path)
    (surplus : Tree σ .value → φ) :
    List (FieldForm σ φ ρ) → Nat → ρ → Tree σ .items → Decoding φ ρ
  | [], _, record, .noItems => pure record
  | [], _, _, .item head _ => .fail path (.fault (surplus head))
  | field :: fields, position, record, .noItems =>
    if field.required then
      .fail path (.tooShort position
        (form.expected ++ " with " ++ toString form.fields.length ++ " elements"))
    else form.positions scope path surplus fields (position + 1) record .noItems
  | field :: fields, position, record, .item head rest => do
    let updated ← field.read record scope (.index position :: path) head
    form.positions scope path surplus fields (position + 1) updated rest

/-- Decode a record. -/
def decode (form : RecordForm σ φ ρ) : Decoder σ φ ρ := fun scope path tree => do
  match ← scope.follow path tree with
  | .leaf scalar =>
    if scope.dialect.isEmpty scalar then form.finish path [] form.start
    else .fail path (scope.dialect.mismatch form.expected scalar)
  | .object all => form.members scope path [] form.start all
  | .list all =>
    match scope.dialect.surplus? with
    | some surplus => form.positions scope path surplus form.fields 0 form.start all
    | none => .fail path (.mismatch "sequence" form.expected)
  | .reference _ => .fail path (.mismatch "sequence" form.expected)

end RecordForm

end Schemata
