import Mathlib.Data.List.Forall2
import Schemata.Proofs.Document.Records
import Schemata.Proofs.Document.Spelling

/-!
# Documents of which parts are left out

`Decoding.Yields` says exactly which values a decoding gives, so that it also says when there is
none. A record of which no field is required may be written with any of its fields left out, and
`decode_given` reads such an object as its given fields, one after the other. A part that is left
out stands for a default, `Stands`.
-/

namespace Schemata

variable {σ φ ρ α β : Type}

/-- What a part of a document stands for: what it means where it is given, and otherwise the
default. -/
inductive Stands (means : β → α → Prop) (default : α) : Option β → α → Prop where
  | absent : Stands means default none default
  | given {content : β} {value : α} (h : means content value) :
      Stands means default (some content) value

namespace Decoding

variable {first : Decoding φ α} {meant : α → Prop}

/-- Whether a decoding gives the values that are meant and no others, and follows no reference. -/
def Yields (decoding : Decoding φ α) (meant : α → Prop) : Prop :=
  ∀ count value after, decoding count = .ok (value, after) ↔ meant value ∧ after = count

theorem yields_pure (value : α) : Yields (pure value : Decoding φ α) (· = value) := by
  intro count other after
  constructor
  · intro h
    cases h
    exact ⟨rfl, rfl⟩
  · rintro ⟨rfl, rfl⟩
    rfl

theorem yields_fail (path : Path) (cause : Cause φ) :
    Yields (fail path cause : Decoding φ α) fun _ => False := by
  intro count value after
  simp [fail]

theorem Yields.congr {other : α → Prop} (h : Yields first meant)
    (hiff : ∀ value, meant value ↔ other value) : Yields first other := by
  intro count value after
  rw [h, hiff]

theorem Yields.bind {next : α → Decoding φ β} {later : α → β → Prop} (h : Yields first meant)
    (hnext : ∀ value, meant value → Yields (next value) (later value)) :
    Yields (first >>= next) fun result => ∃ value, meant value ∧ later value result := by
  intro count result after
  rw [bind_eq_ok_iff]
  constructor
  · rintro ⟨value, middle, hfirst, hresult⟩
    obtain ⟨hvalue, rfl⟩ := (h _ _ _).mp hfirst
    obtain ⟨hmeant, rfl⟩ := (hnext value hvalue _ _ _).mp hresult
    exact ⟨⟨value, hvalue, hmeant⟩, rfl⟩
  · rintro ⟨⟨value, hvalue, hmeant⟩, rfl⟩
    exact ⟨value, after, (h _ _ _).mpr ⟨hvalue, rfl⟩, (hnext value hvalue _ _ _).mpr ⟨hmeant, rfl⟩⟩

theorem Yields.map (h : Yields first meant) (f : α → β) :
    Yields (f <$> first) fun result => ∃ value, meant value ∧ result = f value := by
  rw [map_eq_pure_bind]
  exact h.bind fun value _ => yields_pure (f value)

end Decoding

open Decoding (Yields yields_pure)

section

variable {spelling : Spelling σ} {scope : Scope σ φ}

namespace Decoder

theorem yields_text (h : spelling.Faithful scope.dialect) (path : Path) (content : String) :
    Yields (text scope path ((Value.text content).tree spelling)) (content = ·) := by
  rw [text_text h]
  exact (yields_pure content).congr fun _ => eq_comm

theorem yields_optional_text (h : spelling.Faithful scope.dialect) (path : Path)
    (content : Option String) :
    Yields (optionalText scope path ((Value.optional content).tree spelling)) (content = ·) := by
  cases content with
  | none =>
      have hnone : optionalText scope path ((Value.optional none).tree spelling) = pure none := by
        simp [optionalText, Value.optional, Value.tree, Scope.follow_leaf, h.null,
          Decoding.ofExcept]
      rw [hnone]
      exact (yields_pure none).congr fun _ => eq_comm
  | some content =>
      show Yields (optionalText scope path ((Value.text content).tree spelling)) _
      rw [optional_text_text h]
      exact (yields_pure _).congr fun _ => eq_comm

/-- A list is decoded when each of its items is. -/
theorem yields_list {decode : Decoder σ φ α} {document : β → Value} {means : β → α → Prop}
    (h : ∀ path content, Yields (decode scope path ((document content).tree spelling))
      (means content)) (path : Path) (all : List β) :
    Yields (list decode scope path ((Value.list (all.map document)).tree spelling))
      (List.Forall₂ means all) := by
  have hitems (position : Nat) :
      Yields (items decode scope path position (Value.itemTrees spelling (all.map document)))
        (List.Forall₂ means all) := by
    induction all generalizing position with
    | nil =>
        simp only [List.map_nil, Value.itemTrees, items]
        exact (yields_pure []).congr fun value => List.forall₂_nil_left_iff.symm
    | cons content rest ih =>
        simp only [List.map_cons, Value.itemTrees, items]
        refine ((h _ content).bind fun first _ => (ih (position + 1)).bind fun others _ =>
          yields_pure (first :: others)).congr fun value => ?_
        rw [List.forall₂_cons_left_iff]
        simp only [exists_and_left]
  simpa [list, Value.tree, Scope.follow_list] using hitems 0

end Decoder

/-- The object whose members are the parts that are given. -/
def Value.given (parts : List (String × Option Value)) : Value :=
  .object (parts.filterMap fun part => part.2.map (part.1, ·))

namespace RecordForm

/-- Whether no field of a record is required, and each is found under its own name, different from
those of the others. -/
structure Plain (form : RecordForm σ φ ρ) : Prop where
  optional : ∀ field ∈ form.fields, field.required = false
  found : ∀ field ∈ form.fields, form.field? field.name = some field
  distinct : (form.fields.map (·.name)).Nodup

/-- A field that is given is read, and any other is left as it is. -/
def readPart (spelling : Spelling σ) (scope : Scope σ φ) (path : Path) (record : ρ)
    (part : FieldForm σ φ ρ × Option Value) : Decoding φ ρ :=
  part.2.elim (pure record) fun value =>
    part.1.read record scope (.key part.1.name :: path) (value.tree spelling)

/-- The second key of a field plays no part where the first one is written. -/
@[simp] theorem read_part_or_named (path : Path) (record : ρ) (field : FieldForm σ φ ρ) (key : String)
    (value? : Option Value) :
    readPart spelling scope path record (field.orNamed key, value?) =
      readPart spelling scope path record (field, value?) := rfl

/-- Given fields that were not seen before are read one after the other. -/
theorem members_given (h : spelling.Faithful scope.dialect) {form : RecordForm σ φ ρ}
    (hform : form.Plain) (path : Path) {parts : List (FieldForm σ φ ρ × Option Value)}
    (hfields : ∀ part ∈ parts, part.1 ∈ form.fields)
    (hnames : (parts.map (·.1.name)).Nodup) {seen : List String}
    (hseen : ∀ part ∈ parts, part.1.name ∉ seen) (record : ρ) :
    form.members scope path seen record
        (Value.memberTrees spelling
          (parts.filterMap fun part => part.2.map (part.1.name, ·))) =
      parts.foldlM (readPart spelling scope path) record := by
  induction parts generalizing seen record with
  | nil =>
      have hfinish : form.fields.find? (fun field => field.required && !seen.contains field.name) =
          none := by
        rw [List.find?_eq_none]
        intro field hfield
        simp [hform.optional field hfield]
      rw [List.filterMap_nil, members_nil, finish, hfinish]
      rfl
  | cons part rest ih =>
      obtain ⟨field, value?⟩ := part
      obtain ⟨hfield, hrest⟩ := List.forall_mem_cons.mp hfields
      obtain ⟨hfresh, hothers⟩ := List.nodup_cons.mp hnames
      obtain ⟨hunseen, hrestUnseen⟩ := List.forall_mem_cons.mp hseen
      cases value? with
      | none =>
          rw [List.foldlM_cons]
          exact ih hrest hothers hrestUnseen record
      | some value =>
          have hlater : ∀ part ∈ rest, part.1.name ∉ field.name :: seen := by
            intro part hpart hmem
            rcases List.mem_cons.mp hmem with heq | hmem
            · exact hfresh (List.mem_map.mpr ⟨part, hpart, heq⟩)
            · exact hrestUnseen part hpart hmem
          show form.members scope path seen record (Value.memberTrees spelling
            ((field.name, value) :: rest.filterMap fun part => part.2.map (part.1.name, ·))) = _
          rw [members_cons h, hform.found field hfield, List.foldlM_cons]
          simp only [if_neg hunseen, ih hrest hothers hlater]
          rfl

/-- An object in which each field of a record is given or left out is decoded as the given ones, in
order. -/
theorem decode_given (h : spelling.Faithful scope.dialect) {form : RecordForm σ φ ρ}
    (hform : form.Plain) (path : Path) (values : List (Option Value))
    (hlength : form.fields.length ≤ values.length) :
    form.decode scope path
        ((Value.given ((form.fields.map (·.name)).zip values)).tree spelling) =
      (form.fields.zip values).foldlM (readPart spelling scope path) form.start := by
  have hfields : ∀ part ∈ form.fields.zip values, part.1 ∈ form.fields := fun part hpart =>
    (List.of_mem_zip hpart).1
  have hnames : ((form.fields.zip values).map (·.1.name)).Nodup := by
    have hzip := List.map_fst_zip hlength
    rw [← Function.comp_def, ← List.map_map, hzip]
    exact hform.distinct
  rw [Value.given, List.zip_map_left, decode_object, List.filterMap_map]
  exact members_given h hform path hfields hnames (fun _ _ => List.not_mem_nil) form.start

/-- What the part of a field makes of a record. -/
theorem yields_part {name : String} {decode : Decoder σ φ α} {store : ρ → α → ρ}
    {document : β → Value} {means : β → α → Prop}
    (h : ∀ path content, Yields (decode scope path ((document content).tree spelling))
      (means content)) (path : Path) {record : ρ} {value : α} (hstore : store record value = record)
    (content? : Option β) :
    Yields (readPart spelling scope path record (.of name decode store, content?.map document))
      fun updated => ∃ other, Stands means value content? other ∧ updated = store record other := by
  cases content? with
  | none =>
      refine (yields_pure record).congr fun updated => ?_
      constructor
      · rintro rfl
        exact ⟨value, .absent, hstore.symm⟩
      · rintro ⟨other, ⟨⟩, rfl⟩
        exact hstore
  | some content =>
      refine ((h _ content).map (store record)).congr fun updated => exists_congr fun other => ?_
      refine and_congr_left fun _ => ⟨.given, fun hstands => ?_⟩
      cases hstands with
      | given hmeans => exact hmeans

end RecordForm

end

end Schemata
