import Schemata.Proofs.ClassModel.Visibility
import Schemata.Proofs.Document.Json.Presentation
import Schemata.Proofs.Document.Parts

/-!
# What class model documents mean

A sketch is a class model as somebody writes it down: every part may be left out, and a visibility is
any text. It means a class model when each part does, with texts that spell the visibilities. The
main statement, `read_sketch_eq_ok_iff`, is that a text that shows a sketch is read as the models that
the sketch means, so that it is refused exactly when a text given for a visibility spells none.
-/

namespace Schemata

open Decoding (Yields yields_pure yields_fail)
open RecordForm (yields_part)

/-- An attribute as it is written down. -/
structure AttributeSketch where
  name : Option String := none
  dataType : Option String := none
  stereotype : Option (Option String) := none
  initialValue : Option (Option String) := none
  visibility : Option String := none

/-- A class as it is written down. -/
structure ClassSketch where
  name : Option String := none
  visibility : Option String := none
  attributes : Option (List AttributeSketch) := none

/-- A class model as it is written down. -/
structure ModelSketch where
  name : Option String := none
  classes : Option (List ClassSketch) := none

namespace AttributeSketch

/-- The sketch as a document shows it. -/
def document (sketch : AttributeSketch) : Value :=
  .given
    [("name", sketch.name.map .text),
     ("datatype", sketch.dataType.map .text),
     ("stereotype", sketch.stereotype.map .optional),
     ("initial_value", sketch.initialValue.map .optional),
     ("visibility", sketch.visibility.map .text)]

/-- Whether a sketch means an attribute. -/
structure Means (sketch : AttributeSketch) (item : Attribute) : Prop where
  name : Stands Eq "" sketch.name item.name
  dataType : Stands Eq "" sketch.dataType item.dataType
  stereotype : Stands Eq none sketch.stereotype item.stereotype
  initialValue : Stands Eq none sketch.initialValue item.initialValue
  visibility : Stands Visibility.Spells .public sketch.visibility item.visibility

end AttributeSketch

namespace ClassSketch

/-- The sketch as a document shows it. -/
def document (sketch : ClassSketch) : Value :=
  .given
    [("name", sketch.name.map .text),
     ("visibility", sketch.visibility.map .text),
     ("attributes", sketch.attributes.map fun all => .list (all.map AttributeSketch.document))]

/-- Whether a sketch means a class. -/
structure Means (sketch : ClassSketch) (node : ModelClass) : Prop where
  name : Stands Eq "" sketch.name node.name
  visibility : Stands Visibility.Spells .public sketch.visibility node.visibility
  attributes : Stands (List.Forall₂ AttributeSketch.Means) [] sketch.attributes node.attributes

end ClassSketch

namespace ModelSketch

/-- The sketch as a document shows it. -/
def document (sketch : ModelSketch) : Value :=
  .given
    [("name", sketch.name.map .text),
     ("classes", sketch.classes.map fun all => .list (all.map ClassSketch.document))]

/-- Whether a sketch means a class model. -/
structure Means (sketch : ModelSketch) (model : ClassModel) : Prop where
  name : Stands Eq "" sketch.name model.name
  classes : Stands (List.Forall₂ ClassSketch.Means) [] sketch.classes model.classes

end ModelSketch

section

variable {σ φ : Type} {spelling : Spelling σ} {scope : Scope σ φ}

theorem Attribute.form_plain : (Attribute.form : RecordForm σ φ Attribute).Plain where
  optional := by simp [form, FieldForm.of, FieldForm.orNamed]
  found := by simp [form, RecordForm.field?, FieldForm.answers, FieldForm.of, FieldForm.orNamed]
  distinct := by simp [form]

theorem ModelClass.form_plain : (ModelClass.form : RecordForm σ φ ModelClass).Plain where
  optional := by simp [form, FieldForm.of]
  found := by simp [form, RecordForm.field?, FieldForm.answers, FieldForm.of]
  distinct := by simp [form]

theorem ClassModel.form_plain : (ClassModel.form : RecordForm σ φ ClassModel).Plain where
  optional := by simp [form, FieldForm.of]
  found := by simp [form, RecordForm.field?, FieldForm.answers, FieldForm.of]
  distinct := by simp [form]

/-- A text is decoded as the visibility that it spells. -/
theorem Visibility.yields_of_text (path : Path) (text : String) :
    Yields (match ofText? text with
      | some visibility => pure visibility
      | none => .fail path.tail (.rejected (unknownMessage text)) : Decoding φ Visibility)
      (Spells text) := by
  cases htext : ofText? text with
  | some visibility =>
      refine (yields_pure visibility).congr fun other => ?_
      rw [← of_text_eq_some_iff, htext, Option.some_inj, eq_comm]
  | none =>
      refine (yields_fail _ _).congr fun other => ?_
      exact (iff_false_intro (of_text_eq_none_iff.mp htext other)).symm

variable (h : spelling.Faithful scope.dialect)
include h

theorem Visibility.yields_decode (path : Path) (content : String) :
    Yields (Visibility.decode scope path ((Value.text content).tree spelling))
      (Spells content) := by
  unfold decode
  rw [Decoder.text_text h, pure_bind]
  exact yields_of_text path content

theorem AttributeSketch.yields_document (path : Path) (sketch : AttributeSketch) :
    Yields (Attribute.form.decode scope path (sketch.document.tree spelling)) sketch.Means := by
  have hdecode : Attribute.form.decode scope path (sketch.document.tree spelling) = _ :=
    RecordForm.decode_given h Attribute.form_plain path
      [sketch.name.map .text, sketch.dataType.map .text, sketch.stereotype.map .optional,
        sketch.initialValue.map .optional, sketch.visibility.map .text] (Nat.le_refl _)
  have htext (path : Path) (content : String) := Decoder.yields_text h path content
  have hoptional (path : Path) (content : Option String) := Decoder.yields_optional_text h path content
  rw [hdecode]
  simp only [Attribute.form, List.zip_cons_cons, List.zip_nil_left, List.foldlM_cons,
    List.foldlM_nil, RecordForm.read_part_or_named]
  refine .congr (.bind (yields_part htext path rfl sketch.name) fun _ _ =>
    .bind (yields_part htext path rfl sketch.dataType) fun _ _ =>
    .bind (yields_part hoptional path rfl sketch.stereotype) fun _ _ =>
    .bind (yields_part hoptional path rfl sketch.initialValue) fun _ _ =>
    .bind (yields_part (Visibility.yields_decode h) path rfl sketch.visibility) fun _ _ =>
    yields_pure _) fun item => ?_
  constructor
  · rintro ⟨_, ⟨name, hname, rfl⟩, _, ⟨dataType, htype, rfl⟩, _, ⟨stereotype, hstereotype, rfl⟩,
      _, ⟨initialValue, hinitial, rfl⟩, _, ⟨visibility, hvisibility, rfl⟩, rfl⟩
    exact ⟨hname, htype, hstereotype, hinitial, hvisibility⟩
  · intro hmeans
    exact ⟨_, ⟨_, hmeans.name, rfl⟩, _, ⟨_, hmeans.dataType, rfl⟩, _, ⟨_, hmeans.stereotype, rfl⟩,
      _, ⟨_, hmeans.initialValue, rfl⟩, _, ⟨_, hmeans.visibility, rfl⟩, rfl⟩

theorem ClassSketch.yields_document (path : Path) (sketch : ClassSketch) :
    Yields (ModelClass.form.decode scope path (sketch.document.tree spelling)) sketch.Means := by
  have hdecode : ModelClass.form.decode scope path (sketch.document.tree spelling) = _ :=
    RecordForm.decode_given h ModelClass.form_plain path
      [sketch.name.map .text, sketch.visibility.map .text,
        sketch.attributes.map fun all : List AttributeSketch =>
          .list (all.map AttributeSketch.document)] (Nat.le_refl _)
  have htext (path : Path) (content : String) := Decoder.yields_text h path content
  have hattributes (path : Path) (all : List AttributeSketch) :=
    Decoder.yields_list (AttributeSketch.yields_document h) path all
  rw [hdecode]
  simp only [ModelClass.form, List.zip_cons_cons, List.zip_nil_left, List.foldlM_cons,
    List.foldlM_nil]
  refine .congr (.bind (yields_part htext path rfl sketch.name) fun _ _ =>
    .bind (yields_part (Visibility.yields_decode h) path rfl sketch.visibility) fun _ _ =>
    .bind (yields_part hattributes path rfl sketch.attributes) fun _ _ =>
    yields_pure _) fun node => ?_
  constructor
  · rintro ⟨_, ⟨name, hname, rfl⟩, _, ⟨visibility, hvisibility, rfl⟩, _, ⟨attributes, hall, rfl⟩, rfl⟩
    exact ⟨hname, hvisibility, hall⟩
  · intro hmeans
    exact ⟨_, ⟨_, hmeans.name, rfl⟩, _, ⟨_, hmeans.visibility, rfl⟩, _, ⟨_, hmeans.attributes, rfl⟩,
      rfl⟩

theorem ModelSketch.yields_document (path : Path) (sketch : ModelSketch) :
    Yields (ClassModel.form.decode scope path (sketch.document.tree spelling)) sketch.Means := by
  have hdecode : ClassModel.form.decode scope path (sketch.document.tree spelling) = _ :=
    RecordForm.decode_given h ClassModel.form_plain path
      [sketch.name.map .text,
        sketch.classes.map fun all : List ClassSketch =>
          .list (all.map ClassSketch.document)] (Nat.le_refl _)
  have htext (path : Path) (content : String) := Decoder.yields_text h path content
  have hclasses (path : Path) (all : List ClassSketch) :=
    Decoder.yields_list (ClassSketch.yields_document h) path all
  rw [hdecode]
  simp only [ClassModel.form, List.zip_cons_cons, List.zip_nil_left, List.foldlM_cons,
    List.foldlM_nil]
  refine .congr (.bind (yields_part htext path rfl sketch.name) fun _ _ =>
    .bind (yields_part hclasses path rfl sketch.classes) fun _ _ => yields_pure _) fun model => ?_
  constructor
  · rintro ⟨_, ⟨name, hname, rfl⟩, _, ⟨classes, hall, rfl⟩, rfl⟩
    exact ⟨hname, hall⟩
  · intro hmeans
    exact ⟨_, ⟨_, hmeans.name, rfl⟩, _, ⟨_, hmeans.classes, rfl⟩, rfl⟩

end

namespace Json

open Decoding (Agree)

variable {α : Type} {meant : α → Prop}

/-- Decodings that agree give the same values. -/
theorem yields_of_agree {decoding other : Path → Decoding Fault α}
    (h : ∀ path, Yields (decoding path) meant) (hagree : Agree (· = ·) decoding other) (path : Path) :
    Yields (other path) meant := by
  cases hagree with
  | values hvalue hother hrelated =>
      rw [hother, ← hrelated, ← hvalue path]
      exact h path
  | issues hissue hother =>
      intro count value after
      obtain ⟨issue, hissue⟩ := hissue path count
      obtain ⟨otherIssue, hother⟩ := hother path count
      rw [← h path count value after, hissue, hother]
      simp

/-- Wherever a visibility is read, it is a text that spells one. -/
theorem yields_visibility (path : Path) (tree : Tree Leaf .value) :
    Yields (Visibility.decode scope path tree) fun visibility =>
      ∃ text, textOf? tree = some text ∧ Visibility.Spells text visibility := by
  unfold Visibility.decode
  cases htext : textOf? tree with
  | none =>
      intro count value after
      obtain ⟨issue, hissue⟩ := (Decoding.Fails.bind (fails_text_as htext "a string" path) _) count
      rw [Decoder.text, hissue]
      simp
  | some text =>
      rw [Decoder.text, text_as_eq htext, pure_bind]
      exact (Visibility.yields_of_text path text).congr fun visibility => by simp

/-- A text gives the values that its tree gives. -/
theorem decode_eq_ok_iff {text : String} {tree : Tree Leaf .value} (htext : Writes text tree)
    {decoder : Decoder Leaf Fault α} (h : Yields (decoder scope [] tree) meant) {value : α} :
    decode decoder text = .ok value ↔ meant value := by
  have hanswer {ε β : Type} (answer : Except ε β) (given : β) :
      answer = .ok given ↔ answer.toOption = some given := by
    cases answer <;> simp [Except.toOption]
  rw [hanswer, decode_writes htext, Option.map_eq_some_iff]
  simp only [← hanswer]
  constructor
  · rintro ⟨⟨_, after⟩, hrun, rfl⟩
    exact ((h 0 _ after).mp hrun).1
  · intro hmeant
    exact ⟨(value, 0), (h 0 value 0).mpr ⟨hmeant, rfl⟩, rfl⟩

end Json

/-- A JSON text that shows a sketch is read as the class models that the sketch means. Its members
may be written in any order, under either of their names and with others among them that mean
nothing. -/
theorem ModelSketch.read_eq_ok_iff {sketch : ModelSketch} {text : String}
    {tree : Tree Json.Leaf .value} (htext : Json.Writes text tree)
    (htree : Json.ModelAlike (sketch.document.tree Json.spelling) tree) {model : ClassModel} :
    ClassModel.read text = .ok model ↔ sketch.Means model := by
  have hformat : ClassModel.formatOf text = .json := by
    cases htree with
    | object _ => exact Json.format_of_writes htext
    | other _ hobject _ => exact absurd rfl (hobject _)
  have hyields := Json.yields_of_agree
    (fun path => ModelSketch.yields_document Json.spelling_faithful path sketch)
    (Json.respects_model htree) []
  rw [ClassModel.read, hformat, Json.map_error_eq_ok_iff, Format.decode, Json.map_error_eq_ok_iff]
  exact Json.decode_eq_ok_iff htext hyields

end Schemata
