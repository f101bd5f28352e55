import Schemata.Plugins.Documents
import Schemata.Proofs.ClassModel.Extraction
import Schemata.Proofs.Document.Json.Reading
import Schemata.Proofs.Document.Yaml.Reading
import Schemata.Proofs.Schema.Document
import Schemata.Schema.File

/-!
# Schemas that are written and loaded

A format is lossless when every rendered schema decodes to its own draft. Whatever the format, what
is loaded from a rendered schema is then what building its draft gives: the schema with its message
dropped and its keys registered, or a refusal when its fields have no proper names.
-/

namespace Schemata

/-- Whether a rendered schema decodes to its draft. -/
def Format.Lossless (format : Format) : Prop :=
  ∀ schema : Schema, format.decode Draft.form.decode (schema.render format) = .ok schema.draft

namespace Schema

theorem load_result {format : Format} {text : String} {draft : Draft}
    (h : format.decode Draft.form.decode text = .ok draft) :
    (load format text).result = draft.build.result := by
  rw [load, h]

theorem load_settled {format : Format} {text : String} {schema : Schema}
    (h : (load format text).result = .ok schema) : schema.Settled := by
  rw [load] at h
  cases hdecode : format.decode Draft.form.decode text with
  | error detail =>
      rw [hdecode] at h
      cases h
  | ok draft =>
      rw [hdecode] at h
      exact Draft.build_settled h

theorem load_file_settled {files : Files} {path : String} {schema : Schema}
    (h : (loadFile files path).result = .ok schema) : schema.Settled := by
  rw [loadFile, Progress.result_andThen, Progress.result_step] at h
  cases htext : files.readText path with
  | error reason =>
      simp only [htext, bind, Except.bind] at h
      cases h
  | ok text =>
      simp only [htext, bind, Except.bind] at h
      exact load_settled h

end Schema

namespace Format.Lossless

variable {format : Format} (h : format.Lossless)
include h

/-- What is rendered says everything but the message. -/
theorem eq_of_render_eq {schema other : Schema}
    (hrender : schema.render format = other.render format) :
    schema.setError other.error = other := by
  have hdraft := h schema
  rw [hrender, h other] at hdraft
  exact Schema.eq_of_draft_eq (Except.ok.inj hdraft).symm

theorem load_render_result (schema : Schema) :
    (Schema.load format (schema.render format)).result = schema.draft.build.result :=
  Schema.load_result (h schema)

end Format.Lossless

theorem parse_result_eq_ok_iff {format : Format} {text : String} {context : Context}
    {reached : Representation} :
    ((documentParser format).parse text context).result = .ok reached ↔
      ∃ schema, (Schema.load format text).result = .ok schema ∧ reached = .schema schema := by
  cases hfailure : (Schema.load format text).failure with
  | some reason => simp [documentParser, hfailure, Progress.result]
  | none => simp [documentParser, hfailure, Progress.result, eq_comm]

namespace Format.Lossless

variable {format : Format} (h : format.Lossless)
include h

/-- A sound schema is parsed back exactly when its fields have proper names, with its keys
registered. -/
theorem parse_render_eq_ok_iff {schema : Schema} (hsound : schema.Sound) {context : Context}
    {reached : Representation} :
    ((documentParser format).parse (schema.render format) context).result = .ok reached ↔
      schema.FieldsProper ∧ reached = .schema schema.reloaded := by
  rw [parse_result_eq_ok_iff, h.load_render_result]
  constructor
  · rintro ⟨other, hbuild, rfl⟩
    obtain ⟨hproper, rfl⟩ := (Schema.build_draft_eq_ok_iff hsound).mp hbuild
    exact ⟨hproper, rfl⟩
  · rintro ⟨hproper, rfl⟩
    exact ⟨_, (Schema.build_draft_eq_ok_iff hsound).mpr ⟨hproper, rfl⟩, rfl⟩

/-- However a schema was built, its text is parsed back exactly when its fields have proper
names. -/
theorem parse_render_session (name : String) (calls : List Call) (context : Context)
    (reached : Representation) :
    let schema := ((Session.start name).after calls).schema
    ((documentParser format).parse (schema.render format) context).result = .ok reached ↔
      schema.FieldsProper ∧ reached = .schema schema.reloaded :=
  h.parse_render_eq_ok_iff (Session.sound_after (Session.sound_start name) calls).schema

/-- A settled schema is parsed back as it is. -/
theorem parse_render_settled {schema : Schema} (hsettled : schema.Settled) (context : Context) :
    ((documentParser format).parse (schema.render format) context).result =
      .ok (.schema schema) := by
  rw [parse_result_eq_ok_iff, h.load_render_result]
  exact ⟨schema, hsettled.build_draft, rfl⟩

end Format.Lossless

theorem Json.lossless : Format.json.Lossless := by
  intro schema
  have htext : (schema.render .json).toList = Json.prettyChars 0 schema.document ++ ['\n'] := by
    simp [Schema.render, Json.pretty]
  have hdecode := Json.decode_written htext (Json.pretty_written 0 schema.document)
    (by simp [Json.Blank, Json.isSpace])
    fun scope hscope => Schema.decode_document (hscope ▸ Json.spelling_faithful) [] schema
  rw [Format.decode, hdecode]
  rfl

/-- Parsing the JSON text that is produced for a schema, however it was built, succeeds exactly when
all fields have proper names, and gives the schema without its message and with its keys registered.
Loaded and extracted schemas come back as they are. Only schemas that agree in everything but their
messages have the same text. -/
theorem json_round_trip :
    (∀ (name : String) (calls : List Call) (context : Context),
      let schema := ((Session.start name).after calls).schema
      ((documentProducer .json).produce (.schema schema) context).result =
          .ok (.text (schema.render .json)) ∧
        ∀ reached,
          ((documentParser .json).parse (schema.render .json) context).result = .ok reached ↔
            schema.FieldsProper ∧ reached = .schema schema.reloaded) ∧
      (∀ (format : Format) (text : String) (schema : Schema) (context : Context),
        (Schema.load format text).result = .ok schema →
          ((documentParser .json).parse (schema.render .json) context).result =
            .ok (.schema schema)) ∧
      (∀ (files : Files) (path : String) (schema : Schema) (context : Context),
        (Schema.loadFile files path).result = .ok schema →
          ((documentParser .json).parse (schema.render .json) context).result =
            .ok (.schema schema)) ∧
      (∀ (model : ClassModel) (filter : Option Visibility) (name : String) (context : Context),
        let schema := (model.extract filter { name }).value
        ((documentParser .json).parse (schema.render .json) context).result =
          .ok (.schema schema)) ∧
      ∀ schema other : Schema,
        schema.render .json = other.render .json → schema.setError other.error = other := by
  refine ⟨?_, ?_, ?_, ?_, ?_⟩
  · intro name calls context
    exact ⟨rfl, Json.lossless.parse_render_session name calls context⟩
  · intro format text schema context hload
    exact Json.lossless.parse_render_settled (Schema.load_settled hload) context
  · intro files path schema context hload
    exact Json.lossless.parse_render_settled (Schema.load_file_settled hload) context
  · intro model filter name context
    have hsettled := model.extract_settled filter (Schema.Settled.empty name)
    exact Json.lossless.parse_render_settled hsettled context
  · intro schema other
    exact Json.lossless.eq_of_render_eq

theorem Yaml.lossless : Format.yaml.Lossless := by
  intro schema
  have hdecode := Yaml.decode_write schema.outlined_document
    fun scope hscope => Schema.decode_document (hscope ▸ Yaml.spelling_faithful) [] schema
  rw [Format.decode, Schema.render, hdecode]
  rfl

/-- Parsing the YAML text that is produced for a schema, however it was built, succeeds exactly when
all fields have proper names, and gives the schema without its message and with its keys registered.
What the text says of any schema is the schema's draft, in which every default and key that is given
stands as it is and every other is absent. -/
theorem yaml_round_trip :
    (∀ (name : String) (calls : List Call) (context : Context),
      let schema := ((Session.start name).after calls).schema
      ((documentProducer .yaml).produce (.schema schema) context).result =
          .ok (.text (schema.render .yaml)) ∧
        ∀ reached,
          ((documentParser .yaml).parse (schema.render .yaml) context).result = .ok reached ↔
            schema.FieldsProper ∧ reached = .schema schema.reloaded) ∧
      ∀ schema : Schema,
        Format.yaml.decode Draft.form.decode (schema.render .yaml) = .ok schema.draft := by
  refine ⟨?_, Yaml.lossless⟩
  intro name calls context
  exact ⟨rfl, Yaml.lossless.parse_render_session name calls context⟩

end Schemata
