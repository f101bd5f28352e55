import Schemata.Plugins.ClassModels
import Schemata.Proofs.ClassModel.Drawing
import Schemata.Proofs.ClassModel.Sketch

/-!
# How class models are parsed

The parser of class models works in stages: it looks at the visibility option, reads the text, draws
the tables, and reports when there are none although there were classes. `Parsed` has one case for
each way in which this can end, and `parse_parsed` says that these are all. The main statement,
`parse_exact`, tells for every text and all options which failure comes first, what is drawn when
none does, and when a report is made. A text names a visibility in a document exactly when it does so
as an option.
-/

namespace Schemata

open ModelClass (passing)

/-- What options ask for: no filter, or the one that the visibility option spells. -/
inductive Options.Asks (options : Options) : Option Visibility → Prop where
  | nothing (h : options.get? "visibility" = none) : Asks options none
  | named {value : String} {visibility : Visibility} (h : options.get? "visibility" = some value)
      (hspells : Visibility.Spells value visibility) : Asks options (some visibility)

namespace Options

variable {options : Options}

theorem visibility_eq (options : Options) : options.visibility? = options.get? "visibility" := rfl

theorem filter_eq_ok_iff {filter : Option Visibility} :
    options.filter = .ok filter ↔ options.Asks filter := by
  rw [Options.filter, visibility_eq]
  constructor
  · intro h
    cases hvalue : options.get? "visibility" with
    | none =>
        rw [hvalue] at h
        cases h
        exact .nothing hvalue
    | some value =>
        cases htext : Visibility.ofText? value with
        | none => simp [hvalue, htext] at h
        | some visibility =>
            simp only [hvalue, htext] at h
            cases h
            exact .named hvalue (Visibility.of_text_eq_some_iff.mp htext)
  · intro h
    cases h with
    | nothing hnone => rw [hnone]
    | named hvalue hspells => simp only [hvalue, Visibility.of_text_eq_some_iff.mpr hspells]

theorem filter_eq_error_iff {reason : PipelineError} :
    options.filter = .error reason ↔
      ∃ value, options.get? "visibility" = some value ∧
        (∀ visibility, ¬Visibility.Spells value visibility) ∧
        reason = .invalidOption "visibility" (Visibility.unknownMessage value) := by
  rw [Options.filter, visibility_eq]
  cases hvalue : options.get? "visibility" with
  | none => simp
  | some value =>
      cases htext : Visibility.ofText? value with
      | none => simp [← Visibility.of_text_eq_none_iff, htext, visibilityKey, eq_comm]
      | some visibility => simp [← Visibility.of_text_eq_none_iff, htext]

/-- Options ask for one filter at most. -/
theorem Asks.unique {filter other : Option Visibility} (h : options.Asks filter)
    (hother : options.Asks other) : filter = other := by
  rw [← filter_eq_ok_iff] at h hother
  exact Except.ok.inj (h.symm.trans hother)

/-- Where options ask for something, a value that they have for the visibility spells one. -/
theorem Asks.known {filter : Option Visibility} (h : options.Asks filter) {value : String}
    (hvalue : options.get? "visibility" = some value) :
    ∃ visibility, Visibility.Spells value visibility := by
  cases h with
  | nothing hnone => cases hnone.symm.trans hvalue
  | named hnamed hspells =>
      cases hnamed.symm.trans hvalue
      exact ⟨_, hspells⟩

end Options

theorem ModelClass.not_passes_iff {node : ModelClass} {filter : Option Visibility} :
    ¬node.Passes filter ↔ node.name = "" ∨ node.visibility.admittedBy filter = false := by
  rw [Passes, Decidable.not_and_iff_or_not, Decidable.not_not, Bool.not_eq_true]

namespace ClassModel

/-- The schema that is drawn of a class model, one table for each class that passes. -/
def drawing (model : ClassModel) (filter : Option Visibility) : Schema :=
  { name := model.name
    tables := (passing filter model.classes).map (ModelClass.table filter)
    error := "" }

theorem drawing_tables_eq_nil_iff {model : ClassModel} {filter : Option Visibility} :
    (model.drawing filter).tables = [] ↔ ∀ node ∈ model.classes, ¬node.Passes filter := by
  rw [drawing, List.map_eq_nil_iff, passing, List.filter_eq_nil_iff]
  simp only [decide_eq_true_eq]

theorem extract_value_eq_drawing {model : ClassModel} {filter : Option Visibility}
    (h : (model.extract filter { name := model.name }).failure = none) :
    (model.extract filter { name := model.name }).value = model.drawing filter :=
  ModelClass.extract_all_value h

/-- How the parsing of a text ends under some options, with which result and which report. -/
inductive Parsed (options : Options) (text : String) :
    Except PipelineError Representation → Option String → Prop where
  | unknown {value : String} (hvalue : options.get? "visibility" = some value)
      (hspells : ∀ visibility, ¬Visibility.Spells value visibility) :
      Parsed options text
        (.error (.invalidOption "visibility" (Visibility.unknownMessage value))) none
  | unreadable {filter : Option Visibility} {reason : ModelError} (hasks : options.Asks filter)
      (hread : read text = .error reason) :
      Parsed options text (.error (.plugin (.model reason))) none
  | refused {filter : Option Visibility} {model : ClassModel} {reason : SchemaError}
      (hasks : options.Asks filter) (hread : read text = .ok model)
      (hstops : (model.extract filter { name := model.name }).failure = some reason) :
      Parsed options text (.error (.plugin (.model (.schema reason)))) none
  | drawn {filter : Option Visibility} {model : ClassModel} (hasks : options.Asks filter)
      (hread : read text = .ok model)
      (hends : (model.extract filter { name := model.name }).failure = none)
      (hsome : model.classes = [] ∨ ∃ node ∈ model.classes, node.Passes filter) :
      Parsed options text (.ok (.schema (model.drawing filter))) none
  | undrawn {filter : Option Visibility} {model : ClassModel} (hasks : options.Asks filter)
      (hread : read text = .ok model)
      (hends : (model.extract filter { name := model.name }).failure = none)
      (hclasses : model.classes ≠ []) (hnone : ∀ node ∈ model.classes, ¬node.Passes filter) :
      Parsed options text (.ok (.schema (model.drawing filter))) (some (nothingDrawn filter))

theorem parse_parsed (text : String) (options : Options) :
    Parsed options text (classModelParser.parse text { options }).result
      (classModelParser.parse text { options }).report? := by
  unfold classModelParser
  dsimp only
  cases hfilter : options.filter with
  | error reason =>
      obtain ⟨value, hvalue, hspells, rfl⟩ := Options.filter_eq_error_iff.mp hfilter
      exact .unknown hvalue hspells
  | ok filter =>
      have hasks := Options.filter_eq_ok_iff.mp hfilter
      cases hread : read text with
      | error reason => exact .unreadable hasks hread
      | ok model =>
          dsimp only
          cases hends : (model.extract filter { name := model.name }).failure with
          | some reason => exact .refused hasks hread hends
          | none =>
              dsimp only
              rw [extract_value_eq_drawing hends]
              simp only [Bool.and_eq_true, List.isEmpty_iff, Bool.not_eq_true',
                List.isEmpty_eq_false_iff, drawing_tables_eq_nil_iff]
              split
              · next hnone => exact .undrawn hasks hread hends hnone.2 hnone.1
              · next hsome =>
                refine .drawn hasks hread hends ?_
                by_contra hneither
                simp only [not_or, not_exists, not_and] at hneither
                exact hsome ⟨hneither.2, hneither.1⟩

section

variable {options : Options} {text : String} {result : Except PipelineError Representation}
  {report? : Option String} (h : Parsed options text result report?)
include h

theorem Parsed.eq_invalid_option_iff {reason : String} :
    result = .error (.invalidOption "visibility" reason) ↔
      ∃ value, options.get? "visibility" = some value ∧
        (∀ visibility, ¬Visibility.Spells value visibility) ∧
        reason = Visibility.unknownMessage value := by
  have hknown {filter : Option Visibility} (hasks : options.Asks filter) :
      ¬∃ value, options.get? "visibility" = some value ∧
        (∀ visibility, ¬Visibility.Spells value visibility) ∧
        reason = Visibility.unknownMessage value := by
    rintro ⟨value, hvalue, hspells, -⟩
    obtain ⟨visibility, hvisibility⟩ := hasks.known hvalue
    exact hspells visibility hvisibility
  cases h with
  | unknown hvalue hspells =>
      constructor
      · intro heq
        cases heq
        exact ⟨_, hvalue, hspells, rfl⟩
      · rintro ⟨other, hother, -, rfl⟩
        cases hvalue.symm.trans hother
        rfl
  | unreadable hasks hread => exact iff_of_false nofun (hknown hasks)
  | refused hasks hread hstops => exact iff_of_false nofun (hknown hasks)
  | drawn hasks hread hends hsome => exact iff_of_false nofun (hknown hasks)
  | undrawn hasks hread hends hclasses hnone => exact iff_of_false nofun (hknown hasks)

theorem Parsed.eq_plugin_iff {filter : Option Visibility} (hfilter : options.Asks filter)
    {failure : PluginFailure} :
    result = .error (.plugin failure) ↔
      (∃ reason, read text = .error reason ∧ failure = .model reason) ∨
      ∃ model reason, read text = .ok model ∧
        (model.extract filter { name := model.name }).failure = some reason ∧
        failure = .model (.schema reason) := by
  cases h with
  | unknown hvalue hspells =>
      obtain ⟨visibility, hvisibility⟩ := hfilter.known hvalue
      exact absurd hvisibility (hspells visibility)
  | unreadable hasks hread => simp [hread, eq_comm]
  | refused hasks hread hstops =>
      obtain rfl := hasks.unique hfilter
      simp [hread, hstops, eq_comm]
  | drawn hasks hread hends hsome =>
      obtain rfl := hasks.unique hfilter
      simp [hread, hends]
  | undrawn hasks hread hends hclasses hnone =>
      obtain rfl := hasks.unique hfilter
      simp [hread, hends]

theorem Parsed.eq_drawing {filter : Option Visibility} (hfilter : options.Asks filter)
    {model : ClassModel} (hmodel : read text = .ok model)
    (hsucceeds : (model.extract filter { name := model.name }).failure = none) :
    result = .ok (.schema (model.drawing filter)) ∧
      ∀ message, report? = some message ↔
        model.classes ≠ [] ∧ (∀ node ∈ model.classes, ¬node.Passes filter) ∧
          message = nothingDrawn filter := by
  cases h with
  | unknown hvalue hspells =>
      obtain ⟨visibility, hvisibility⟩ := hfilter.known hvalue
      exact absurd hvisibility (hspells visibility)
  | unreadable hasks hread => cases hread.symm.trans hmodel
  | refused hasks hread hstops =>
      obtain rfl := hasks.unique hfilter
      cases hread.symm.trans hmodel
      cases hstops.symm.trans hsucceeds
  | drawn hasks hread hends hsome =>
      obtain rfl := hasks.unique hfilter
      cases hread.symm.trans hmodel
      refine ⟨rfl, fun message => iff_of_false nofun ?_⟩
      rintro ⟨hclasses, hnone, -⟩
      rcases hsome with hempty | ⟨node, hnode, hpasses⟩
      · exact hclasses hempty
      · exact hnone node hnode hpasses
  | undrawn hasks hread hends hclasses hnone =>
      obtain rfl := hasks.unique hfilter
      cases hread.symm.trans hmodel
      refine ⟨rfl, fun message => ?_⟩
      rw [Option.some_inj, and_iff_right hclasses, and_iff_right hnone, eq_comm]

theorem Parsed.report_eq_none {failure : PipelineError} (hfailure : result = .error failure) :
    report? = none := by
  cases h with
  | unknown | unreadable | refused => rfl
  | drawn | undrawn => cases hfailure

end

/-- How class models are parsed, for every text and all options. Parsing fails for the option exactly
when that is there and spells no visibility, whatever the text is. Otherwise it fails with a plugin's
error exactly when the text is no class model or its extraction is refused, and else gives the schema
of the model's name with one table for each class that passes. It reports exactly when the model has
classes and every one of them is unnamed or filtered out, and never when it fails. In JSON a text is
taken for the visibility of a class or an attribute exactly when it spells one, as it is for the
option, and the rest of a model is what `ModelSketch.Means` says. -/
theorem parse_exact :
    (∀ (text : String) (options : Options),
      let reply := classModelParser.parse text { options }
      (∀ reason, reply.result = .error (.invalidOption "visibility" reason) ↔
        ∃ value, options.get? "visibility" = some value ∧
          (∀ visibility, ¬Visibility.Spells value visibility) ∧
          reason = Visibility.unknownMessage value) ∧
      (∀ filter, options.Asks filter →
        (∀ failure, reply.result = .error (.plugin failure) ↔
          (∃ reason, read text = .error reason ∧ failure = .model reason) ∨
          ∃ model reason, read text = .ok model ∧
            (model.extract filter { name := model.name }).failure = some reason ∧
            failure = .model (.schema reason)) ∧
        ∀ model, read text = .ok model →
          (model.extract filter { name := model.name }).failure = none →
          reply.result = .ok (.schema
            { name := model.name
              tables := (passing filter model.classes).map (ModelClass.table filter)
              error := "" }) ∧
          ∀ message, reply.report? = some message ↔
            model.classes ≠ [] ∧
              (∀ node ∈ model.classes,
                node.name = "" ∨ node.visibility.admittedBy filter = false) ∧
              message = nothingDrawn filter) ∧
      ∀ failure, reply.result = .error failure → reply.report? = none) ∧
    (∀ (path : Path) (tree : Tree Json.Leaf .value),
      (Visibility.decode Json.scope path tree).Yields fun visibility =>
        ∃ value, Json.textOf? tree = some value ∧ Visibility.Spells value visibility) ∧
    ∀ (sketch : ModelSketch) (text : String) (tree : Tree Json.Leaf .value),
      Json.Writes text tree → Json.ModelAlike (sketch.document.tree Json.spelling) tree →
        ∀ model, read text = .ok model ↔ sketch.Means model := by
  refine ⟨fun text options => ?_, Json.yields_visibility,
    fun sketch text tree htext htree model => ModelSketch.read_eq_ok_iff htext htree⟩
  have hparsed := parse_parsed text options
  refine ⟨fun reason => hparsed.eq_invalid_option_iff,
    fun filter hasks => ⟨fun failure => hparsed.eq_plugin_iff hasks, fun model hread hends => ?_⟩,
    fun failure => hparsed.report_eq_none⟩
  simp only [← ModelClass.not_passes_iff]
  exact hparsed.eq_drawing hasks hread hends

end ClassModel

end Schemata
