import Schemata.Pipeline.Config
import Schemata.Proofs.Document.Json.Presentation
import Schemata.Proofs.Pipeline.Options

/-!
# Documents of class models and configurations

In every format that spells scalars faithfully, the document of a class model decodes to the model and
the document of a configuration to the configuration. What a document leaves out is what a decoder
takes when nothing is given, and a null is no text. The main statement, `json_reload`, is that both
are read back from their JSON texts.
-/

namespace Schemata

section Documents

variable {σ φ : Type} {spelling : Spelling σ} {scope : Scope σ φ}

theorem Visibility.decode_name (h : spelling.Faithful scope.dialect) (path : Path)
    (visibility : Visibility) :
    decode scope path ((Value.text visibility.name).tree spelling) = pure visibility := by
  simp [decode, Decoder.text_text h, ofText?_name]

theorem Attribute.decode_document (h : spelling.Faithful scope.dialect) (path : Path)
    (item : Attribute) :
    Attribute.form.decode scope path (item.document.tree spelling) = pure item := by
  rw [document, RecordForm.decode_object]
  simp [RecordForm.members_cons h, RecordForm.members_nil, form, RecordForm.field?,
    FieldForm.answers, FieldForm.of, FieldForm.orNamed, Decoder.text_text h,
    Decoder.optional_text_optional h, Visibility.decode_name h, RecordForm.finish]

theorem ModelClass.decode_document (h : spelling.Faithful scope.dialect) (path : Path)
    (node : ModelClass) :
    ModelClass.form.decode scope path (node.document.tree spelling) = pure node := by
  have hattributes (path : Path) :
      Decoder.list Attribute.form.decode scope path
        ((Value.list (node.attributes.map Attribute.document)).tree spelling) =
      pure node.attributes := by
    simpa using Decoder.list_map (Attribute.decode_document h) path node.attributes
  rw [document, RecordForm.decode_object]
  simp [RecordForm.members_cons h, RecordForm.members_nil, form, RecordForm.field?,
    FieldForm.answers, FieldForm.of, Decoder.text_text h, Visibility.decode_name h, hattributes,
    RecordForm.finish]

/-- The document of a class model decodes to the model. -/
theorem ClassModel.decode_document (h : spelling.Faithful scope.dialect) (path : Path)
    (model : ClassModel) :
    ClassModel.form.decode scope path (model.document.tree spelling) = pure model := by
  have hclasses (path : Path) :
      Decoder.list ModelClass.form.decode scope path
        ((Value.list (model.classes.map ModelClass.document)).tree spelling) =
      pure model.classes := by
    simpa using Decoder.list_map (ModelClass.decode_document h) path model.classes
  rw [document, RecordForm.decode_object]
  simp [RecordForm.members_cons h, RecordForm.members_nil, form, RecordForm.field?,
    FieldForm.answers, FieldForm.of, Decoder.text_text h, hclasses, RecordForm.finish]

theorem Options.decode_document (h : spelling.Faithful scope.dialect) (path : Path)
    (options : Options) :
    Decoder.textPairs scope path (options.document.tree spelling) = pure options.pairs :=
  Decoder.text_pairs_map h path options.pairs

/-- The document of a configuration decodes to the configuration. -/
theorem EngineConfig.decode_document (h : spelling.Faithful scope.dialect) (path : Path)
    (config : EngineConfig) :
    EngineConfig.form.decode scope path (config.document.tree spelling) = pure config := by
  rcases config with ⟨parser, producer, visibility, options⟩
  rw [document, RecordForm.decode_object]
  by_cases hempty : options.isEmpty = true
  · obtain rfl := Options.is_empty_iff.mp hempty
    cases visibility <;>
      simp [hempty, Value.whenSome, RecordForm.members_cons h, RecordForm.members_nil, form,
        RecordForm.field?, FieldForm.answers, FieldForm.of, FieldForm.orNamed, Decoder.text_text h,
        Decoder.optional_text_text h, RecordForm.finish]
  · cases visibility <;>
      simp [hempty, Value.whenSome, RecordForm.members_cons h, RecordForm.members_nil, form,
        RecordForm.field?, FieldForm.answers, FieldForm.of, FieldForm.orNamed, Decoder.text_text h,
        Decoder.optional_text_text h, Options.decode_document h, RecordForm.finish]

end Documents

namespace Json

theorem writes_compact (value : Value) : Writes (compact value) (value.tree spelling) :=
  ⟨[], compactChars value, [], blank_nil, blank_nil, by simp [compact], compact_written value⟩

theorem writes_pretty (value : Value) : Writes (pretty value) (value.tree spelling) :=
  ⟨[], prettyChars 0 value, [], blank_nil, blank_nil, by simp [pretty], pretty_written 0 value⟩

variable {α : Type} {text : String} {tree : Tree Leaf .value} {content : α}

/-- A text is decoded as the tree that it is written for. -/
theorem decode_of_writes {decoder : Decoder Leaf Fault α} (h : Writes text tree)
    (hdecode : decoder scope [] tree = pure content) : decode decoder text = .ok content := by
  have hanswer := decode_writes h decoder
  rw [hdecode] at hanswer
  exact (to_option_eq_ok_iff hanswer content).mpr rfl

end Json

open Json (Writes spelling)

/-- A class model is read back from every text that is written for its document. -/
theorem ClassModel.read_of_writes {model : ClassModel} {text : String}
    (h : Writes text (model.document.tree spelling)) : read text = .ok model := by
  have hformat : formatOf text = .json := Json.format_of_writes h
  have hdecode : form.decode Json.scope [] (model.document.tree spelling) = pure model :=
    decode_document Json.spelling_faithful [] model
  rw [read, hformat, Format.decode, Json.decode_of_writes h hdecode]
  rfl

/-- A configuration is read back from every text that is written for its document. -/
theorem EngineConfig.of_text_of_writes {config : EngineConfig} {text : String}
    (h : Writes text (config.document.tree spelling)) : ofText .json text = .ok config := by
  have hdecode : form.decode Json.scope [] (config.document.tree spelling) = pure config :=
    decode_document Json.spelling_faithful [] config
  rw [ofText, Format.decode, Json.decode_of_writes h hdecode]
  rfl

/-- Every class model and every configuration is read back from its JSON text as it is, whether the
text stands on one line or on several. A text that is empty is kept apart from one that is not
there. -/
theorem json_reload :
    (∀ model : ClassModel,
      ClassModel.read (Json.compact model.document) = .ok model ∧
        ClassModel.read (Json.pretty model.document) = .ok model) ∧
      ∀ config : EngineConfig,
        EngineConfig.ofText .json (Json.compact config.document) = .ok config ∧
          EngineConfig.ofText .json (Json.pretty config.document) = .ok config := by
  constructor
  · intro model
    exact ⟨ClassModel.read_of_writes (Json.writes_compact _),
      ClassModel.read_of_writes (Json.writes_pretty _)⟩
  · intro config
    exact ⟨EngineConfig.of_text_of_writes (Json.writes_compact _),
      EngineConfig.of_text_of_writes (Json.writes_pretty _)⟩

end Schemata
