import Schemata.Document.Decoder
import Schemata.Document.Value

/-!
# Trees of written values

A format spells the scalars of a value in its own way; the rest of a written value comes back as a
tree of the same shape, `Value.tree`. A spelling is faithful to a dialect when its scalars mean
there what they were written for, and then decoders return what documents were made of, whatever
the format.
-/

namespace Schemata

/-- What a reader makes of the scalars that a writer wrote. -/
structure Spelling (σ : Type) where
  null : σ
  flag : Bool → σ
  text : String → σ
  key : String → σ

namespace Value

variable {σ : Type}

mutual

/-- The tree of a written value. -/
def tree (spelling : Spelling σ) : Value → Tree σ .value
  | null => .leaf spelling.null
  | flag value => .leaf (spelling.flag value)
  | text content => .leaf (spelling.text content)
  | list items => .list (itemTrees spelling items)
  | object members => .object (memberTrees spelling members)

/-- The trees of the items of a list. -/
def itemTrees (spelling : Spelling σ) : List Value → Tree σ .items
  | [] => .noItems
  | item :: rest => .item (tree spelling item) (itemTrees spelling rest)

/-- The trees of the members of an object. -/
def memberTrees (spelling : Spelling σ) : List (String × Value) → Tree σ .members
  | [] => .noMembers
  | (key, value) :: rest =>
    .member (.leaf (spelling.key key)) (tree spelling value) (memberTrees spelling rest)

end

end Value

/-- Whether scalars mean in a dialect what they were written for. -/
structure Spelling.Faithful {σ φ : Type} (spelling : Spelling σ) (dialect : Dialect σ φ) :
    Prop where
  null : dialect.absent spelling.null = .ok true
  flag : ∀ value, dialect.flag (spelling.flag value) = .ok value
  text : ∀ expected content, dialect.text expected (spelling.text content) = .ok content
  present : ∀ content, dialect.absent (spelling.text content) = .ok false
  key : ∀ expected name, dialect.text expected (spelling.key name) = .ok name

variable {σ φ ρ α β : Type}

theorem Scope.follow_leaf (scope : Scope σ φ) (path : Path) (scalar : σ) :
    scope.follow path (.leaf scalar) = pure (.leaf scalar) := rfl

theorem Scope.follow_list (scope : Scope σ φ) (path : Path) (items : Tree σ .items) :
    scope.follow path (.list items) = pure (.list items) := rfl

theorem Scope.follow_object (scope : Scope σ φ) (path : Path) (members : Tree σ .members) :
    scope.follow path (.object members) = pure (.object members) := rfl

section

variable {spelling : Spelling σ} {scope : Scope σ φ}

namespace Decoder

theorem text_as_leaf {scalar : σ} {expected content : String}
    (h : scope.dialect.text expected scalar = .ok content) (path : Path) :
    textAs expected scope path (.leaf scalar) = pure content := by
  simp [textAs, Scope.follow_leaf, h, Decoding.ofExcept]

theorem text_text (h : spelling.Faithful scope.dialect) (path : Path) (content : String) :
    text scope path ((Value.text content).tree spelling) = pure content :=
  text_as_leaf (h.text _ content) path

theorem optional_text_text (h : spelling.Faithful scope.dialect) (path : Path) (content : String) :
    optionalText scope path ((Value.text content).tree spelling) = pure (some content) := by
  simp [optionalText, Value.tree, Scope.follow_leaf, h.present, h.text, Decoding.ofExcept]

theorem optional_text_optional (h : spelling.Faithful scope.dialect) (path : Path)
    (content : Option String) :
    optionalText scope path ((Value.optional content).tree spelling) = pure content := by
  cases content with
  | none =>
      simp [optionalText, Value.optional, Value.tree, Scope.follow_leaf, h.null, Decoding.ofExcept]
  | some text => exact optional_text_text h path text

theorem flag_flag (h : spelling.Faithful scope.dialect) (path : Path) (value : Bool) :
    flag scope path ((Value.flag value).tree spelling) = pure value := by
  simp [flag, Value.tree, Scope.follow_leaf, h.flag, Decoding.ofExcept]

/-- A list is decoded item by item. -/
theorem list_map {decode : Decoder σ φ α} {document : β → Value} {view : β → α}
    (h : ∀ path item, decode scope path ((document item).tree spelling) = pure (view item))
    (path : Path) (all : List β) :
    list decode scope path ((Value.list (all.map document)).tree spelling) =
      pure (all.map view) := by
  have hitems (position : Nat) :
      items decode scope path position (Value.itemTrees spelling (all.map document)) =
        pure (all.map view) := by
    induction all generalizing position with
    | nil => simp [items, Value.itemTrees]
    | cons item rest ih => simp [items, Value.itemTrees, h, ih]
  simp [list, Value.tree, Scope.follow_list, hitems]

/-- A table of texts is decoded member by member. -/
theorem text_pairs_map (h : spelling.Faithful scope.dialect) (path : Path)
    (all : List (String × String)) :
    textPairs scope path
        ((Value.object (all.map fun entry => (entry.1, .text entry.2))).tree spelling) =
      pure all := by
  have hpairs : pairs scope path
      (Value.memberTrees spelling (all.map fun entry => (entry.1, .text entry.2))) = pure all := by
    induction all with
    | nil => simp [pairs, Value.memberTrees]
    | cons entry rest ih =>
        have hkey : text scope path (.leaf (spelling.key entry.1)) = pure entry.1 :=
          text_as_leaf (h.key _ entry.1) path
        simp [pairs, Value.memberTrees, hkey, stepTo, text_text h, ih]
  simp [textPairs, Value.tree, Scope.follow_object, hpairs]

end Decoder

namespace RecordForm

theorem decode_object (form : RecordForm σ φ ρ) (path : Path) (members : List (String × Value)) :
    form.decode scope path ((Value.object members).tree spelling) =
      form.members scope path [] form.start (Value.memberTrees spelling members) := by
  simp [decode, Value.tree, Scope.follow_object]

/-- The member of a known key is decoded as its field, unless the field was given before; any other
is passed over. -/
theorem members_cons (h : spelling.Faithful scope.dialect) (form : RecordForm σ φ ρ) (path : Path)
    (seen : List String) (record : ρ) (key : String) (value : Value)
    (rest : List (String × Value)) :
    form.members scope path seen record (Value.memberTrees spelling ((key, value) :: rest)) =
      match form.field? key with
      | none =>
        scope.skip (.key key :: path) (value.tree spelling) >>= fun _ =>
          form.members scope path seen record (Value.memberTrees spelling rest)
      | some field =>
        if field.name ∈ seen then .fail path (.duplicateField field.name)
        else
          field.read record scope (.key key :: path) (value.tree spelling) >>= fun updated =>
            form.members scope path (field.name :: seen) updated
              (Value.memberTrees spelling rest) := by
  have hkey := Decoder.text_as_leaf (h.key "field identifier" key) path
  cases hfield : form.field? key with
  | none => simp only [Value.memberTrees, members, hkey, pure_bind, Decoder.stepTo, hfield]
  | some field =>
      simp only [Value.memberTrees, members, hkey, pure_bind, Decoder.stepTo, hfield,
        List.contains_eq_mem, decide_eq_true_eq]

theorem members_nil (form : RecordForm σ φ ρ) (path : Path) (seen : List String) (record : ρ) :
    form.members scope path seen record (Value.memberTrees spelling []) =
      form.finish path seen record := by
  simp [Value.memberTrees, members]

end RecordForm

end

end Schemata
