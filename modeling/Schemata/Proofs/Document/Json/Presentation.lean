import Schemata.ClassModel.Document
import Schemata.Pipeline.Config
import Schemata.Proofs.Document.Json.Rearrangement
import Schemata.Proofs.Journal
import Schemata.Schema.Document

/-!
# Ways to write one document

For schemas, class models and configurations, two trees are alike when they show the same document:
members may stand in any order, under either of their names, with members among them that mean
nothing. The main statement, `presentation`, is that texts written for trees that are alike are
accepted together and come to the same result, whatever white space stands in them and however their
literals are escaped.
-/

namespace Schemata.Json

open Decoding (Agree Fails)

variable {α ρ : Type}

section Fields

variable {field other : FieldForm Leaf Fault ρ} {key : String}
  {alike : Tree Leaf .value → Tree Leaf .value → Prop}

@[simp] theorem fields_commute_needed_left :
    FieldsCommute field.needed other ↔ FieldsCommute field other := Iff.rfl

@[simp] theorem fields_commute_needed_right :
    FieldsCommute field other.needed ↔ FieldsCommute field other := Iff.rfl

@[simp] theorem fields_commute_named_left :
    FieldsCommute (field.orNamed key) other ↔ FieldsCommute field other := Iff.rfl

@[simp] theorem fields_commute_named_right :
    FieldsCommute field (other.orNamed key) ↔ FieldsCommute field other := Iff.rfl

@[simp] theorem field_respects_needed :
    FieldRespects field.needed alike ↔ FieldRespects field alike := Iff.rfl

@[simp] theorem field_respects_named :
    FieldRespects (field.orNamed key) alike ↔ FieldRespects field alike := Iff.rfl

@[simp] theorem field_respects_eq {name : String} {decode : Decoder Leaf Fault α} {store : ρ → α → ρ}
    (h : Respects decode alike (· = ·)) : FieldRespects (.of name decode store) alike :=
  field_respects h fun record _ _ heq => congrArg (store record) heq

end Fields

/-- The values of one field are alike in a sense of their own, and those of all others when they are
written in different ways. -/
def exceptFor (name : String) (alike : Tree Leaf .value → Tree Leaf .value → Prop) (key : String) :
    Tree Leaf .value → Tree Leaf .value → Prop :=
  if key = name then alike else fun tree other => Alike tree other

theorem except_for_refl {name : String} {alike : Tree Leaf .value → Tree Leaf .value → Prop}
    (h : ∀ tree, alike tree tree) (key : String) (tree : Tree Leaf .value) :
    exceptFor name alike key tree tree := by
  unfold exceptFor
  split
  · exact h tree
  · exact .refl tree

/-- Ways to write a field. -/
def FieldAlike : Tree Leaf .value → Tree Leaf .value → Prop :=
  RecordAlike Field.form fun _ tree other => Alike tree other

/-- Ways to write a table. -/
def TableAlike : Tree Leaf .value → Tree Leaf .value → Prop :=
  RecordAlike TableDraft.form (exceptFor "fields" (ListAlike FieldAlike))

/-- Ways to write a schema. -/
def SchemaAlike : Tree Leaf .value → Tree Leaf .value → Prop :=
  RecordAlike Draft.form (exceptFor "tables" (ListAlike TableAlike))

/-- Ways to write an attribute. -/
def AttributeAlike : Tree Leaf .value → Tree Leaf .value → Prop :=
  RecordAlike Attribute.form fun _ tree other => Alike tree other

/-- Ways to write a class. -/
def ClassAlike : Tree Leaf .value → Tree Leaf .value → Prop :=
  RecordAlike ModelClass.form (exceptFor "attributes" (ListAlike AttributeAlike))

/-- Ways to write a class model. -/
def ModelAlike : Tree Leaf .value → Tree Leaf .value → Prop :=
  RecordAlike ClassModel.form (exceptFor "classes" (ListAlike ClassAlike))

/-- Ways to write a configuration. -/
def ConfigAlike : Tree Leaf .value → Tree Leaf .value → Prop :=
  RecordAlike EngineConfig.form (exceptFor "options" PairsAlike)

@[simp] theorem respects_visibility :
    Respects Visibility.decode (fun tree other => Alike tree other) (· = ·) := by
  intro tree other h
  unfold Visibility.decode
  refine (respects_text h).bind ?_
  rintro text _ rfl
  cases Visibility.ofText? text with
  | some visibility => exact .pure rfl
  | none => exact .fail List.tail List.tail _ _

theorem field_orderly : Orderly Field.form fun _ tree other => Alike tree other where
  same := fun _ => .refl
  respects := by simp [Field.form]
  commute := by simp [Field.form]

theorem respects_field : Respects Field.form.decode FieldAlike (· = ·) :=
  respects_record field_orderly

theorem table_orderly : Orderly TableDraft.form (exceptFor "fields" (ListAlike FieldAlike)) where
  same := except_for_refl (.refl (.refl field_orderly.same))
  respects := by simp [TableDraft.form, exceptFor, respects_field]
  commute := by simp [TableDraft.form]

theorem respects_table : Respects TableDraft.form.decode TableAlike (· = ·) :=
  respects_record table_orderly

theorem schema_orderly : Orderly Draft.form (exceptFor "tables" (ListAlike TableAlike)) where
  same := except_for_refl (.refl (.refl table_orderly.same))
  respects := by simp [Draft.form, exceptFor, respects_table]
  commute := by simp [Draft.form]

theorem respects_schema : Respects Draft.form.decode SchemaAlike (· = ·) :=
  respects_record schema_orderly

theorem attribute_orderly : Orderly Attribute.form fun _ tree other => Alike tree other where
  same := fun _ => .refl
  respects := by simp [Attribute.form]
  commute := by simp [Attribute.form]

theorem respects_attribute : Respects Attribute.form.decode AttributeAlike (· = ·) :=
  respects_record attribute_orderly

theorem class_orderly : Orderly ModelClass.form (exceptFor "attributes" (ListAlike AttributeAlike)) where
  same := except_for_refl (.refl (.refl attribute_orderly.same))
  respects := by simp [ModelClass.form, exceptFor, respects_attribute]
  commute := by simp [ModelClass.form]

theorem respects_class : Respects ModelClass.form.decode ClassAlike (· = ·) :=
  respects_record class_orderly

theorem model_orderly : Orderly ClassModel.form (exceptFor "classes" (ListAlike ClassAlike)) where
  same := except_for_refl (.refl (.refl class_orderly.same))
  respects := by simp [ClassModel.form, exceptFor, respects_class]
  commute := by simp [ClassModel.form]

theorem respects_model : Respects ClassModel.form.decode ModelAlike (· = ·) :=
  respects_record model_orderly

/-- Options that are put in from pairs depend on the last value of every key only. -/
theorem options_respects (name : String) :
    FieldRespects
      (.of name .textPairs fun (config : EngineConfig) pairs =>
        { config with options := .ofPairs pairs }) PairsAlike :=
  field_respects respects_text_pairs fun config _ _ h =>
    congrArg (fun options => { config with options }) h.options_eq

theorem config_orderly : Orderly EngineConfig.form (exceptFor "options" PairsAlike) where
  same := except_for_refl .refl
  respects := by simp [EngineConfig.form, exceptFor, options_respects]
  commute := by simp [EngineConfig.form]

theorem respects_config : Respects EngineConfig.form.decode ConfigAlike (· = ·) :=
  respects_record config_orderly

/-- Whether a text is a way to write a tree, with white space around it. -/
def Writes (text : String) (tree : Tree Leaf .value) : Prop :=
  ∃ before body after, Blank before ∧ Blank after ∧ text.toList = before ++ (body ++ after) ∧
    Written tree body

theorem decode_writes {text : String} {tree : Tree Leaf .value} (h : Writes text tree)
    (decoder : Decoder Leaf Fault α) :
    (decode decoder text).toOption = ((decoder scope [] tree).run 0).toOption.map (·.1) := by
  obtain ⟨before, body, after, hbefore, hafter, htext, hwritten⟩ := h
  have hread := read_written hwritten hbefore hafter
  rw [← htext] at hread
  have hscope : ({ dialect, anchor? := fun _ => none, limit := 0 } : Scope Leaf Fault) = scope := rfl
  simp only [decode, hread, hscope]
  cases (decoder scope [] tree).run 0 <;> rfl

/-- Texts that are written for trees which are alike are decoded to the same value, or refused. -/
theorem decode_alike {decoder : Decoder Leaf Fault α}
    {alike : Tree Leaf .value → Tree Leaf .value → Prop} (h : Respects decoder alike (· = ·))
    {text otherText : String} {tree other : Tree Leaf .value} (htext : Writes text tree)
    (hother : Writes otherText other) (htree : alike tree other) :
    (decode decoder text).toOption = (decode decoder otherText).toOption := by
  rw [decode_writes htext, decode_writes hother]
  cases h htree with
  | values hvalue hother hrelated => rw [hvalue, hother, hrelated]
  | issues hissue hother =>
      obtain ⟨issue, hissue⟩ := hissue [] 0
      obtain ⟨otherIssue, hother⟩ := hother [] 0
      rw [StateT.run, hissue, StateT.run, hother]
      rfl

theorem to_option_eq_ok_iff {ε : Type} {answer other : Except ε α}
    (h : answer.toOption = other.toOption) (value : α) : answer = .ok value ↔ other = .ok value := by
  cases answer with
  | error reason =>
      cases other with
      | error otherReason => simp
      | ok otherValue => cases h
  | ok first =>
      cases other with
      | error otherReason => cases h
      | ok second =>
          cases h
          exact .rfl

theorem map_error_eq_ok_iff {ε δ : Type} {answer : Except ε α} {tell : ε → δ} {value : α} :
    answer.mapError tell = .ok value ↔ answer = .ok value := by
  cases answer <;> simp [Except.mapError]

theorem format_decode_alike (decoder : {σ φ : Type} → Decoder σ φ α)
    {alike : Tree Leaf .value → Tree Leaf .value → Prop} (h : Respects decoder alike (· = ·))
    {text otherText : String} {tree other : Tree Leaf .value} (htext : Writes text tree)
    (hother : Writes otherText other) (htree : alike tree other) (value : α) :
    Format.json.decode decoder text = .ok value ↔
      Format.json.decode decoder otherText = .ok value := by
  simp only [Format.decode, map_error_eq_ok_iff]
  exact to_option_eq_ok_iff (decode_alike h htext hother htree) value

theorem load_eq_ok_iff {format : Format} {text : String} {schema : Schema} :
    (Schema.load format text).result = .ok schema ↔
      ∃ draft, format.decode Draft.form.decode text = .ok draft ∧ draft.build.result = .ok schema := by
  rw [Schema.load]
  cases format.decode Draft.form.decode text with
  | error detail => simp
  | ok draft => simp

theorem skip_blank {gap : List Char} (h : Blank gap) (rest : List Char) :
    Text.trimStart (gap ++ '{' :: rest) = '{' :: rest := by
  have hgap : ∀ c ∈ gap, Text.isBlank c = true := by
    intro c hc
    have hspace := h c hc
    simp only [isSpace, Bool.or_eq_true, beq_iff_eq] at hspace
    obtain ((rfl | rfl) | rfl) | rfl := hspace <;> decide
  rw [Text.trimStart, List.dropWhile_append_of_pos hgap]
  exact Text.trimStart_of_not_blank (by decide)

/-- An object is taken for JSON. -/
theorem format_of_writes {text : String} {members : Tree Leaf .members}
    (h : Writes text (.object members)) : ClassModel.formatOf text = .json := by
  obtain ⟨before, body, after, hbefore, hafter, htext, hwritten⟩ := h
  cases hwritten with
  | object hmembers =>
      rw [ClassModel.formatOf, htext, List.cons_append, skip_blank hbefore]
      rfl

/-- Texts that show the same document are accepted together and come to the same schema, class model
or configuration. The members of a record may stand in any order, the members of a table of texts
too if their names are different. Neither does it matter which name of a field is taken, what else is
written under names that mean nothing, what white space stands between tokens, and in which escapes
a literal spells its text. -/
theorem presentation :
    (∀ (text : List Char) (pieces : List Piece), Literal.Spelled text pieces →
      Literal.content pieces = .ok (String.ofList text)) ∧
    (∀ (ρ : Type) (form : RecordForm Leaf Fault ρ)
        (inner : String → Tree Leaf .value → Tree Leaf .value → Prop)
        (members others : List (Tree Leaf .value × Tree Leaf .value)),
      (∀ name tree, inner name tree tree) → members.Perm others →
        Rearranged form inner (membersOf members) (membersOf others)) ∧
    (∀ members others : List (Tree Leaf .value × Tree Leaf .value), members.Perm others →
      (members.Pairwise fun member other =>
        ∀ name, textOf? member.1 = some name → textOf? other.1 ≠ some name) →
        Reordered (membersOf members) (membersOf others)) ∧
    (∀ (text otherText : String) (tree other : Tree Leaf .value), Writes text tree →
      Writes otherText other → SchemaAlike tree other → ∀ schema,
        (Schema.load .json text).result = .ok schema ↔
          (Schema.load .json otherText).result = .ok schema) ∧
    (∀ (text otherText : String) (members : Tree Leaf .members) (other : Tree Leaf .value),
      Writes text (.object members) → Writes otherText other → ModelAlike (.object members) other →
        ClassModel.formatOf text = .json ∧ ClassModel.formatOf otherText = .json ∧
        ∀ model, ClassModel.read text = .ok model ↔ ClassModel.read otherText = .ok model) ∧
    ∀ (text otherText : String) (tree other : Tree Leaf .value), Writes text tree →
      Writes otherText other → ConfigAlike tree other → ∀ config,
        EngineConfig.ofText .json text = .ok config ↔
          EngineConfig.ofText .json otherText = .ok config := by
  refine ⟨fun text pieces h => Literal.content_spelled h,
    fun ρ form inner members others h hperm => .of_perm h hperm,
    fun members others hperm hnames => .of_perm hperm hnames, ?_, ?_, ?_⟩
  · intro text otherText tree other htext hother halike schema
    have hdecode := format_decode_alike Draft.form.decode respects_schema htext hother halike
    simp only [load_eq_ok_iff, hdecode]
  · intro text otherText members other htext hother halike
    have hdecode := format_decode_alike ClassModel.form.decode respects_model htext hother halike
    have hformat := format_of_writes htext
    have hotherFormat : ClassModel.formatOf otherText = .json := by
      cases halike with
      | object h => exact format_of_writes hother
      | other h hobject hlist => exact absurd rfl (hobject members)
    refine ⟨hformat, hotherFormat, fun model => ?_⟩
    simp only [ClassModel.read, hformat, hotherFormat, map_error_eq_ok_iff, hdecode]
  · intro text otherText tree other htext hother halike config
    have hdecode := format_decode_alike EngineConfig.form.decode respects_config htext hother halike
    simp only [EngineConfig.ofText, map_error_eq_ok_iff, hdecode]

/-- A configuration in two texts: the other one starts with a blank, has a member that is no field,
and takes the other name of the producer, with an escape in it. -/
theorem presentation_of_producer :
    let text := "\x7b\"to\": \"sql\"\x7d"
    let otherText := " \x7b\"x\": [],\"\\u0070roducer\":\"sql\"\x7d"
    let pieces : List Piece := .unit 0x70 :: "roducer".toList.map Literal.piece
    let value : Tree Leaf .value := .leaf (.text (.ok "sql"))
    let tree : Tree Leaf .value := .object (.member (.leaf (.text (.ok "to"))) value .noMembers)
    let other : Tree Leaf .value :=
      .object (.member (.leaf (.text (.ok "x"))) (.list .noItems)
        (.member (.leaf (.text (Literal.content pieces))) value .noMembers))
    Writes text tree ∧ Writes otherText other ∧ ConfigAlike tree other ∧
      EngineConfig.ofText .json text = .ok { producer := "sql" } ∧
      EngineConfig.ofText .json otherText = .ok { producer := "sql" } := by
  intro text otherText pieces value tree other
  have hpieces : Literal.WrittenPieces pieces _ :=
    .cons (.digits (show Text.hexNumber? ['0', '0', '7', '0'] = some 0x70 by decide))
      (Literal.encode_written "roducer".toList)
  have htext : Writes text tree := by
    refine ⟨[], _, [], blank_nil, blank_nil, ?_,
      .object (pretty_member_written blank_nil (written_encode "sql") (.nil blank_nil))⟩
    decide
  have hother : Writes otherText other := by
    refine ⟨[' '], _, [], blank_space, blank_nil, ?_,
      .object (pretty_member_written blank_nil (.list (.nil blank_nil))
        (.cons blank_nil blank_nil hpieces blank_nil blank_nil (written_encode "sql")
          (.nil blank_nil)))⟩
    decide
  have hunknown : textOf? (.leaf (.text (.ok "x"))) = some "x" := rfl
  have hname : textOf? (.leaf (.text (.ok "to"))) = some "to" := rfl
  have hotherName : textOf? (.leaf (.text (Literal.content pieces))) = some "producer" := by decide
  have halike : ConfigAlike tree other :=
    .object (.insert hunknown (by decide) (.list (.nil blank_nil))
      (.field hname hotherName rfl rfl (.refl value) .nil))
  have hvalue : EngineConfig.ofText .json "\x7b\"to\": \"sql\"\x7d" =
      .ok { producer := "sql" } := by
    cbv
  obtain ⟨-, -, -, -, -, hconfig⟩ := presentation
  exact ⟨htext, hother, halike, hvalue, (hconfig _ _ _ _ htext hother halike _).1 hvalue⟩

end Schemata.Json
