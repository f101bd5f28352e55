import Schemata.Proofs.ClassModel.Drawing
import Schemata.Proofs.Schema.Replay

/-!
# What a journal says of an extraction

The journal of an extraction has the additions by which the schema grew, `ClassModel.extract_recorded`,
and an entry for each table that is complete. `DrawnUpTo` puts these entries beside the tables: the
classes that were drawn in full each have one, and there is at most one table more, that of the class
at which the extraction stopped. The main statement, `ClassModel.replay_exact`, is that every journal of
an extraction or of loading a schema draws the schema that it left.
-/

namespace Schemata

/-- The table that an entry says is complete, and the number of its fields. -/
def Event.completion? (event : Event) : Option (String × String) :=
  if event.message = "extracted table" then do
    let table ← event.fields.lookup "table"
    let fields ← event.fields.lookup "fields"
    some (table, fields)
  else none

/-- The tables that a journal says are complete, each with the number of its fields. -/
def Journal.completions (journal : Journal) : List (String × String) :=
  journal.filterMap Event.completion?

@[simp] theorem Journal.completions_append (journal more : Journal) :
    completions (journal ++ more) = journal.completions ++ more.completions :=
  List.filterMap_append

theorem Progress.tracks_no_completions {α : Type} :
    Progress.Tracks fun (_ : α) journal (_ : α) => journal.completions = [] where
  refl _ := rfl
  trans h hmore := by rw [Journal.completions_append, h, hmore, List.append_nil]

namespace Attribute

variable (filter : Option Visibility) (className : String) (table : Table) (item : Attribute)

theorem extract_recorded :
    table.Recorded (item.extract filter className table).journal
      (item.extract filter className table).value := by
  unfold extract
  split
  · refine Table.tracks_recorded.andThen (table.add_field_recorded item.field) ?_
    split
    · exact Table.set_primary_key_recorded _ item.name
    · exact Table.tracks_recorded.refl _
  · exact Table.recorded_of_unchanged rfl rfl (Journal.additions_cons_silent (by rfl) [])

theorem extract_completions : (item.extract filter className table).journal.completions = [] := by
  have hadd : (table.addField item.field).journal.completions = [] := by
    unfold Table.addField
    split
    · rfl
    · split <;> rfl
  have hkey (added : Table) (name : String) : (added.setPrimaryKey name).journal.completions = [] := by
    unfold Table.setPrimaryKey
    split <;> rfl
  unfold extract
  split
  · refine @Progress.Tracks.andThen _ _ _ Progress.tracks_no_completions table _ _ hadd ?_
    split
    · exact hkey _ item.name
    · rfl
  · rfl

end Attribute

namespace ModelClass

variable {filter : Option Visibility} {node : ModelClass}

theorem fill_recorded (filter : Option Visibility) (node : ModelClass) (table : Table) :
    table.Recorded (node.fill filter table).journal (node.fill filter table).value := by
  refine Table.tracks_recorded.andThen (Table.tracks_recorded.through
    (Attribute.extract_recorded filter node.name) table node.attributes) ?_
  exact Table.recorded_of_unchanged rfl rfl
    (Journal.additions_cons_silent (by simp [Event.addition?, extracted]) [])

theorem extract_recorded (filter : Option Visibility) (schema : Schema) (node : ModelClass) :
    schema.Recorded (node.extract filter schema).journal (node.extract filter schema).value := by
  unfold extract
  split
  · exact schema.recorded_silent (by rfl)
  · split
    · exact Schema.tracks_recorded.andThen (schema.add_table_recorded node.name)
        (Schema.on_last_table_recorded _ (fill_recorded filter node))
    · exact schema.recorded_silent (by rfl)

/-- A table that could be filled is complete; one where this stopped is not. -/
theorem fill_completions (table : Table) :
    (node.fill filter table).journal.completions =
      match (node.fill filter table).failure with
      | none =>
        let filled := (node.fill filter table).value
        [(filled.name, toString filled.fields.length)]
      | some _ => [] := by
  have hitems := Progress.tracks_no_completions.through
    (Attribute.extract_completions filter node.name) table node.attributes
  have hlast (filled : Table) : Journal.completions [extracted filled] =
      [(filled.name, toString filled.fields.length)] := by rfl
  rw [fill, Progress.emit]
  cases hfailure : (Progress.through _ table node.attributes).failure with
  | some reason => rw [Progress.andThen_of_failure hfailure, hitems, hfailure]
  | none =>
      rw [Progress.andThen_of_none hfailure, Journal.completions_append, hitems]
      exact hlast _

/-- What is told of a class that was drawn in full. -/
def completed (filter : Option Visibility) (node : ModelClass) : String × String :=
  (node.name, toString (node.table filter).fields.length)

/-- A new table that could be filled is the one that the class is drawn as. -/
theorem fill_value (h : (node.fill filter { name := node.name }).failure = none) :
    (node.fill filter { name := node.name }).value = node.table filter := by
  have hresult := Progress.result_eq_value h
  rw [fill_result, fill_draft_eq_ok_iff] at hresult
  exact hresult.2

theorem add_table_completions (schema : Schema) (name : String) :
    (schema.addTable name).journal.completions = [] := by
  unfold Schema.addTable
  split
  · rfl
  · split <;> rfl

/-- A class is told of when it passes and its table is complete. -/
theorem extract_completions (filter : Option Visibility) (schema : Schema) (node : ModelClass) :
    (node.extract filter schema).journal.completions =
      match (node.extract filter schema).failure with
      | none => (passing filter [node]).map (completed filter)
      | some _ => [] := by
  have hpassing : passing filter [node] = if node.Passes filter then [node] else [] := by
    simp [passing, List.filter_cons]
  rw [hpassing]
  unfold extract
  split
  · rename_i hempty
    rw [if_neg fun hpasses : node.Passes filter => hpasses.1 (by simpa using hempty)]
    rfl
  · rename_i hname
    split
    · rename_i hadmitted
      rw [if_pos ⟨by simpa using hname, hadmitted⟩]
      cases hfailure : (schema.addTable node.name).failure with
      | some reason =>
          rw [Progress.andThen_of_failure hfailure, add_table_completions, hfailure]
      | none =>
          obtain ⟨-, -, hgrown⟩ :=
            Schema.add_table_result_eq_ok_iff.mp (Progress.result_eq_value hfailure)
          rw [Progress.andThen_of_none hfailure, Journal.completions_append,
            add_table_completions, hgrown, Schema.on_last_table_concat]
          refine (fill_completions _).trans ?_
          show _ = match (node.fill filter { name := node.name }).failure with
            | none => _
            | some _ => _
          cases hfill : (node.fill filter { name := node.name }).failure with
          | none =>
              rw [fill_value hfill]
              rfl
          | some reason => rfl
    · rename_i hkept
      rw [if_neg fun hpasses : node.Passes filter => hkept hpasses.2]
      rfl

/-- An extraction that is not refused tells of every class that passes. -/
theorem extract_all_completions {schema : Schema} {nodes : List ModelClass}
    (h : (Progress.through (extract filter) schema nodes).failure = none) :
    (Progress.through (extract filter) schema nodes).journal.completions =
      (passing filter nodes).map (completed filter) := by
  induction nodes generalizing schema with
  | nil => rfl
  | cons node rest ih =>
      have hnode := extract_completions filter schema node
      have hpassing : passing filter (node :: rest) = passing filter [node] ++ passing filter rest :=
        List.filter_append [node] rest
      rw [Progress.through] at h ⊢
      cases hfailure : (node.extract filter schema).failure with
      | some reason =>
          rw [Progress.andThen_of_failure hfailure, hfailure] at h
          cases h
      | none =>
          rw [hfailure] at hnode
          rw [Progress.andThen_of_none hfailure] at h ⊢
          rw [Journal.completions_append, hnode, ih h, hpassing, List.map_append]

theorem passes_of_stops {schema reached : Schema} {reason : SchemaError}
    (h : (node.extract filter schema).StopsAt reason reached) : node.Passes filter :=
  Decidable.by_contra fun hkept => by
    have hresult := extract_result filter schema node
    rw [if_neg hkept] at hresult
    cases (Progress.result_eq_ok_iff.mp hresult).1.symm.trans h.1

/-- An extraction that is refused tells of the classes before the one that it is refused for. -/
theorem extract_all_refused {schema : Schema} {nodes : List ModelClass} {reason : SchemaError}
    (h : (Progress.through (extract filter) schema nodes).failure = some reason) :
    ∃ before node after middle,
      passing filter nodes = passing filter before ++ node :: passing filter after ∧
        middle.tables = schema.tables ++ (passing filter before).map (table filter) ∧
        node.Passes filter ∧
        (node.extract filter middle).StopsAt reason
          (Progress.through (extract filter) schema nodes).value ∧
        (Progress.through (extract filter) schema nodes).journal.completions =
          (passing filter before).map (completed filter) := by
  obtain ⟨before, node, after, middle, rfl, hbefore, hstops⟩ :=
    Progress.stops_at_through_iff.mp ⟨h, rfl⟩
  obtain ⟨hdone, hmiddle⟩ := Progress.result_eq_ok_iff.mp hbefore
  have hpasses := passes_of_stops hstops
  have hnode := extract_completions filter middle node
  rw [hstops.1] at hnode
  refine ⟨before, node, after, middle, ?_, ?_, hpasses, hstops, ?_⟩
  · rw [passing, List.filter_append, List.filter_cons_of_pos (by simpa using hpasses)]
    rfl
  · rw [← hmiddle, extract_all_value hdone]
  · rw [Progress.through_append, Progress.andThen_of_none hdone, hmiddle, Progress.through,
      Progress.andThen_of_failure hstops.1, Journal.completions_append,
      extract_all_completions hdone, hnode, List.append_nil]

/-- The tables that an extraction has drawn: those of some classes in full, each with its entry, and at
most one more, which belongs to the class at which the extraction stopped. -/
structure DrawnUpTo (filter : Option Visibility) (schema : Schema) (nodes : List ModelClass)
    (run : Progress SchemaError Schema) (complete : List ModelClass) (unfinished : Option Table) :
    Prop where
  first : complete <+: passing filter nodes
  tables : run.value.tables =
    schema.tables ++ complete.map (table filter) ++ unfinished.toList
  entries : run.journal.completions = complete.map (completed filter)
  succeeded : run.failure = none → complete = passing filter nodes ∧ unfinished = none
  stopped : ∀ held ∈ unfinished, ∃ node reason, complete ++ [node] <+: passing filter nodes ∧
    (node.fill filter { name := node.name }).StopsAt reason held

theorem extract_all_drawn (filter : Option Visibility) (schema : Schema) (nodes : List ModelClass) :
    ∃ complete unfinished, DrawnUpTo filter schema nodes
      (Progress.through (extract filter) schema nodes) complete unfinished := by
  cases hfailure : (Progress.through (extract filter) schema nodes).failure with
  | none =>
      exact ⟨passing filter nodes, none, List.prefix_rfl, by simp [extract_all_value hfailure],
        extract_all_completions hfailure, fun _ => ⟨rfl, rfl⟩, by simp⟩
  | some reason =>
      obtain ⟨before, node, after, middle, hsplit, hdrawn, hpasses, hstops, hentries⟩ :=
        extract_all_refused hfailure
      have hprefix : passing filter before <+: passing filter nodes :=
        hsplit ▸ List.prefix_append _ _
      -- it is refused before its table is added, or within it
      rcases (extract_stops_at_iff hpasses).mp hstops with
        ⟨-, -, hreached⟩ | ⟨-, held, hheld, hreached⟩
      · exact ⟨passing filter before, none, hprefix, by simp [hreached, hdrawn], hentries,
          by simp [hfailure], by simp⟩
      · refine ⟨passing filter before, some held, hprefix, by simp [hreached, hdrawn], hentries,
          by simp [hfailure], ?_⟩
        intro table htable
        obtain rfl := Option.some.inj htable
        exact ⟨node, reason, by simp [hsplit], hheld⟩

end ModelClass

namespace ClassModel

open ModelClass (DrawnUpTo)

theorem extract_recorded (model : ClassModel) (filter : Option Visibility) (schema : Schema) :
    schema.Recorded (model.extract filter schema).journal (model.extract filter schema).value :=
  Schema.tracks_recorded.through (ModelClass.extract_recorded filter) schema model.classes

/-- A journal draws the schema that it is the journal of. Replaying its additions gives the names of the
tables and of their fields, each in order, whether or not an extraction into a schema without tables,
or the loading of a schema, was refused on the way. The journal of an extraction begins with that of
any first part of the classes. It tells of the classes that were drawn in full, in order and each with
the number of its fields; if the extraction is refused there is at most one table more, that of the
class at which it stopped. -/
theorem replay_exact (name advice : String) :
    (∀ (model : ClassModel) (filter : Option Visibility),
      let run := model.extract filter { name, error := advice }
      run.journal.replay = run.value.plan ∧
        ∃ complete unfinished,
          DrawnUpTo filter { name, error := advice } model.classes run complete unfinished) ∧
      (∀ (classes more : List ModelClass) (filter : Option Visibility) (schema : Schema),
        (extract { classes } filter schema).journal <+:
          (extract { classes := classes ++ more } filter schema).journal) ∧
      (∀ format text,
        (Schema.load format text).journal.replay = (Schema.load format text).value.plan) ∧
      ∀ files path,
        (Schema.loadFile files path).journal.replay = (Schema.loadFile files path).value.plan := by
  refine ⟨fun model filter => ⟨?_, ModelClass.extract_all_drawn filter _ model.classes⟩,
    fun classes more filter schema => ?_, Schema.replay_load, Schema.replay_load_file⟩
  · exact (model.extract_recorded filter _).replay_eq rfl
  · exact Progress.journal_prefix_through (ModelClass.extract filter) schema classes more

/-- Of two tables the second is not told to be complete: its class names an attribute twice. -/
example :
    let model : ClassModel :=
      { classes :=
          [{ name := "Order", attributes := [{ name := "" }, { name := "id" }] },
           { name := "Item", attributes := [{ name := "id" }, { name := "id" }] }] }
    let run := model.extract none {}
    run.journal.replay = [("Order", ["id"]), ("Item", ["id"])] ∧
      run.journal.completions = [("Order", "1")] :=
  ⟨rfl, rfl⟩

end ClassModel

end Schemata
