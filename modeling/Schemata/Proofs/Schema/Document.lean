import Mathlib.Data.List.Basic
import Schemata.Proofs.Document.Spelling
import Schemata.Proofs.Document.Yaml.Values
import Schemata.Proofs.Schema.Drafts
import Schemata.Schema.Document

/-!
# Decoding schema documents

In every format that spells scalars faithfully, the document of a schema decodes to the schema's
draft. What a document leaves out is what a decoder takes when nothing is given. The keys of the
document are words, and its lists hold objects.
-/

namespace Schemata

variable {σ φ : Type} {spelling : Spelling σ} {scope : Scope σ φ}

theorem Field.decode_document (h : spelling.Faithful scope.dialect) (path : Path) (field : Field) :
    Field.form.decode scope path (field.document.tree spelling) = pure field := by
  rcases field with ⟨name, dataType, isPrimaryKey, defaultValue⟩
  rw [document, RecordForm.decode_object]
  cases isPrimaryKey <;> cases defaultValue <;>
    simp [Value.whenSome, RecordForm.members_cons h, RecordForm.members_nil, form,
      RecordForm.field?, FieldForm.answers, FieldForm.of, FieldForm.needed, FieldForm.orNamed,
      Decoder.text_text h, Decoder.flag_flag h, Decoder.optional_text_text h, RecordForm.finish]

theorem Table.decode_document (h : spelling.Faithful scope.dialect) (path : Path) (table : Table) :
    TableDraft.form.decode scope path (table.document.tree spelling) = pure table.draft := by
  have hfields (path : Path) :
      Decoder.list Field.form.decode scope path
        ((Value.list (table.fields.map Field.document)).tree spelling) = pure table.fields := by
    simpa using Decoder.list_map (Field.decode_document h) path table.fields
  rw [document, RecordForm.decode_object, draft]
  cases table.primaryKey <;>
    simp [Value.whenSome, RecordForm.members_cons h, RecordForm.members_nil, TableDraft.form,
      RecordForm.field?, FieldForm.answers, FieldForm.of, FieldForm.needed,
      Decoder.text_text h, hfields, Decoder.optional_text_text h, RecordForm.finish]

/-- The document of a schema decodes to its draft. -/
theorem Schema.decode_document (h : spelling.Faithful scope.dialect) (path : Path)
    (schema : Schema) :
    Draft.form.decode scope path (schema.document.tree spelling) = pure schema.draft := by
  have htables (path : Path) :
      Decoder.list TableDraft.form.decode scope path
        ((Value.list (schema.tables.map Table.document)).tree spelling) =
      pure (schema.tables.map Table.draft) :=
    Decoder.list_map (Table.decode_document h) path schema.tables
  rw [document, RecordForm.decode_object, draft]
  by_cases hname : schema.name = "" <;>
    simp [hname, RecordForm.members_cons h, RecordForm.members_nil, Draft.form,
      RecordForm.field?, FieldForm.answers, FieldForm.of,
      Decoder.text_text h, htables, RecordForm.finish]

/-- The draft of a schema says everything but its message. -/
theorem Schema.eq_of_draft_eq {schema other : Schema} (h : schema.draft = other.draft) :
    schema.setError other.error = other := by
  rcases schema with ⟨name, tables, error⟩
  rcases other with ⟨otherName, otherTables, otherError⟩
  simp only [draft, Draft.mk.injEq] at h
  obtain ⟨rfl, htables⟩ := h
  have hinjective : Function.Injective Table.draft := by
    rintro ⟨name, fields, primaryKey⟩ ⟨name', fields', primaryKey'⟩ hdraft
    simpa [Table.draft] using hdraft
  obtain rfl := List.map_injective_iff.mpr hinjective htables
  rfl

namespace Yaml

/-- The keys of schema documents. -/
def keys : List String :=
  ["name", "tables", "fields", "primary_key", "data_type", "is_primary_key", "default_value"]

theorem is_key {key : String} (h : key ∈ keys) : Scanner.IsKey key.toList := by
  simp only [keys, List.mem_cons, List.not_mem_nil, or_false] at h
  rcases h with rfl | rfl | rfl | rfl | rfl | rfl | rfl <;>
    exact ⟨by decide, List.all_eq_true.mp rfl, by decide⟩

theorem OutlinedMembers.single {key : String} {value : Value} (hkey : key ∈ keys)
    (h : Outlined value) : OutlinedMembers [(key, value)] :=
  .cons (is_key hkey) h .nil

theorem OutlinedMembers.append {members others : List (String × Value)}
    (h : OutlinedMembers members) (hothers : OutlinedMembers others) :
    OutlinedMembers (members ++ others) := by
  induction members with
  | nil => exact hothers
  | cons first rest ih =>
      cases h with
      | cons hkey hvalue hrest => exact .cons hkey hvalue (ih hrest)

theorem outlined_when_some {key : String} (hkey : key ∈ keys) (content : Option String) :
    OutlinedMembers (Value.whenSome key content) := by
  cases content with
  | none => exact .nil
  | some text => exact .single hkey (.text text)

theorem OutlinedMembers.object {members : List (String × Value)} (h : OutlinedMembers members)
    (hnonempty : members ≠ []) : OutlinedObject (.object members) := by
  cases h with
  | nil => exact absurd rfl hnonempty
  | cons hkey hvalue hothers => exact ⟨.cons hkey hvalue hothers⟩

theorem outlined_map {α : Type} {document : α → Value} (h : ∀ item, OutlinedObject (document item))
    (all : List α) : OutlinedItems (all.map document) := by
  induction all with
  | nil => exact .nil
  | cons item rest ih =>
      have hitem := h item
      rw [List.map_cons]
      generalize document item = value at hitem
      obtain ⟨hmembers⟩ := hitem
      exact .cons hmembers ih

end Yaml

open Yaml

theorem Field.outlined_document (field : Field) : OutlinedObject field.document := by
  have hflag : OutlinedMembers
      (if field.isPrimaryKey then [("is_primary_key", .flag true)] else []) := by
    split
    · exact .single (by simp [keys]) (.flag true)
    · exact .nil
  have htexts : OutlinedMembers [("name", .text field.name), ("data_type", .text field.dataType)] :=
    .cons (is_key (by simp [keys])) (.text _) (.single (by simp [keys]) (.text _))
  have hdefault :=
    outlined_when_some (show "default_value" ∈ keys by simp [keys]) field.defaultValue
  exact ((htexts.append hflag).append hdefault).object (by simp)

theorem Table.outlined_document (table : Table) : OutlinedObject table.document := by
  have hfields : Outlined (.list (table.fields.map Field.document)) :=
    .list (outlined_map Field.outlined_document table.fields)
  have hkey := outlined_when_some (show "primary_key" ∈ keys by simp [keys]) table.primaryKey
  exact OutlinedMembers.object (.cons (is_key (by simp [keys])) (.text _)
    (.cons (is_key (by simp [keys])) hfields hkey)) (by simp)

/-- The document of a schema is an object of outlined members. -/
theorem Schema.outlined_document (schema : Schema) : OutlinedObject schema.document := by
  have htables : Outlined (.list (schema.tables.map Table.document)) :=
    .list (outlined_map Table.outlined_document schema.tables)
  have hname : OutlinedMembers
      (if schema.name.isEmpty then [] else [("name", .text schema.name)]) := by
    split
    · exact .nil
    · exact .single (by simp [keys]) (.text _)
  exact (hname.append (.single (by simp [keys]) htables)).object (by simp)

end Schemata
