import Schemata.Proofs.Schema.Operations
import Schemata.Schema.File

/-!
# What a journal says of tables

An entry may tell of a table or of a field that was added. Replaying these additions draws a plan: the
names of the tables, each with the names of its fields. `Table.Recorded` and `Schema.Recorded` say that
a journal has just the additions by which a table or a schema grew, wherever this ended. Every operation
is recorded, and so is what is made of them; the main results here are those on loading,
`Schema.replay_load` and `Schema.replay_load_file`.
-/

namespace Schemata

/-- The names of tables, each with the names of its fields, all in order. -/
abbrev Plan := List (String × List String)

/-- What was added. -/
inductive Addition where
  | table (name : String)
  | field (owner name : String)
  deriving DecidableEq, Repr

/-- A plan with one more table behind the others, or one more field behind those of its table. -/
def Addition.apply (plan : Plan) : Addition → Plan
  | table name => plan ++ [(name, [])]
  | field owner name =>
    plan.map fun entry => if entry.1 = owner then (entry.1, entry.2 ++ [name]) else entry

/-- What an entry says was added, if it is one of an addition. -/
def Event.addition? (event : Event) : Option Addition :=
  if event.message = "adding table" then (event.fields.lookup "table").map .table
  else if event.message = "adding field" then do
    let table ← event.fields.lookup "table"
    let field ← event.fields.lookup "field"
    some (.field table field)
  else none

/-- An entry without the name of a table tells of no addition. -/
theorem Event.addition_eq_none {event : Event} (h : event.fields.lookup "table" = none) :
    event.addition? = none := by
  simp [addition?, h]

namespace Journal

/-- The additions that a journal tells of. -/
def additions (journal : Journal) : List Addition :=
  journal.filterMap Event.addition?

/-- The plan that the additions of a journal draw. -/
def replay (journal : Journal) : Plan :=
  journal.additions.foldl Addition.apply []

@[simp] theorem additions_append (journal more : Journal) :
    additions (journal ++ more) = journal.additions ++ more.additions :=
  List.filterMap_append

theorem additions_cons_silent {event : Event} (h : event.addition? = none) (journal : Journal) :
    additions (event :: journal) = journal.additions :=
  List.filterMap_cons_none h

end Journal

/-- Fields that are added to the last table come behind its fields. -/
theorem Addition.fold_fields {plan : Plan} {owner : String} (h : owner ∉ plan.map (·.1))
    (fields names : List String) :
    (names.map (field owner)).foldl apply (plan ++ [(owner, fields)]) =
      plan ++ [(owner, fields ++ names)] := by
  have hothers (name : String) : apply plan (field owner name) = plan := by
    refine (List.map_congr_left fun entry hentry => ?_).trans (List.map_id plan)
    exact if_neg fun heq => h (List.mem_map.mpr ⟨entry, hentry, heq⟩)
  induction names generalizing fields with
  | nil => simp
  | cons name rest ih =>
      have hstep : apply (plan ++ [(owner, fields)]) (field owner name) =
          plan ++ [(owner, fields ++ [name])] := by
        rw [apply, List.map_append]
        exact congr (congrArg (· ++ ·) (hothers name)) (by simp)
      rw [List.map_cons, List.foldl_cons, hstep, ih, List.append_assoc]
      rfl

namespace Table

/-- The additions of a journal are just the fields by which a table grew. -/
structure Recorded (table : Table) (journal : Journal) (reached : Table) : Prop where
  name : reached.name = table.name
  grown : ∃ names, reached.fieldNames = table.fieldNames ++ names ∧
    journal.additions = names.map (.field table.name)

theorem tracks_recorded : Progress.Tracks Recorded where
  refl table := ⟨rfl, [], by simp, rfl⟩
  trans := by
    rintro first second third journal more ⟨hname, names, hfields, hadditions⟩
      ⟨hnextName, moreNames, hnextFields, hnextAdditions⟩
    refine ⟨hnextName.trans hname, names ++ moreNames, ?_, ?_⟩
    · rw [hnextFields, hfields, List.append_assoc]
    · rw [Journal.additions_append, hadditions, hnextAdditions, hname, List.map_append]

/-- A table with the same fields, whatever their flags, and nothing said of it. -/
theorem recorded_of_unchanged {table reached : Table} {journal : Journal}
    (hname : reached.name = table.name) (hfields : reached.fieldNames = table.fieldNames)
    (h : journal.additions = []) : table.Recorded journal reached :=
  ⟨hname, [], by simp [hfields], h⟩

theorem add_field_recorded (table : Table) (field : Field) :
    table.Recorded (table.addField field).journal (table.addField field).value := by
  unfold addField
  split
  · exact tracks_recorded.refl table
  · split
    · exact tracks_recorded.refl table
    · exact ⟨rfl, [field.name], by simp [Progress.step, fieldNames], rfl⟩

theorem field_names_update_first (name : String) (change : Field → Field)
    (h : ∀ field, (change field).name = field.name) (fields : List Field) :
    (updateFirst name change fields).map (·.name) = fields.map (·.name) := by
  induction fields with
  | nil => rfl
  | cons field rest ih =>
      unfold updateFirst
      split
      · simp [h]
      · simp [ih]

theorem set_primary_key_recorded (table : Table) (name : String) :
    table.Recorded (table.setPrimaryKey name).journal (table.setPrimaryKey name).value := by
  unfold setPrimaryKey
  split
  · refine recorded_of_unchanged rfl ?_ rfl
    exact field_names_update_first name (fun field => { field with isPrimaryKey := true })
      (fun _ => rfl) table.fields
  · exact tracks_recorded.refl table

end Table

namespace Schema

/-- The plan of a schema. -/
def plan (schema : Schema) : Plan :=
  schema.tables.map fun table => (table.name, table.fieldNames)

/-- The additions of a journal are just those by which a schema grew, if it had no two tables of one
name; and then it has none. -/
def Recorded (schema : Schema) (journal : Journal) (reached : Schema) : Prop :=
  schema.tableNames.Nodup →
    reached.tableNames.Nodup ∧ journal.additions.foldl Addition.apply schema.plan = reached.plan

theorem tracks_recorded : Progress.Tracks Recorded where
  refl _ hdistinct := ⟨hdistinct, rfl⟩
  trans := by
    intro first second third journal more hfirst hsecond hdistinct
    obtain ⟨hdistinct, hplan⟩ := hfirst hdistinct
    obtain ⟨hdistinct, hnextPlan⟩ := hsecond hdistinct
    refine ⟨hdistinct, ?_⟩
    rw [Journal.additions_append, List.foldl_append, hplan, hnextPlan]

/-- An entry that tells of no addition, and nothing added. -/
theorem recorded_silent (schema : Schema) {event : Event} (h : event.addition? = none) :
    schema.Recorded [event] schema := fun hdistinct =>
  ⟨hdistinct, by rw [Journal.additions_cons_silent h]; rfl⟩

theorem add_table_recorded (schema : Schema) (name : String) :
    schema.Recorded (schema.addTable name).journal (schema.addTable name).value := by
  unfold addTable
  split
  · exact tracks_recorded.refl schema
  · split
    · exact tracks_recorded.refl schema
    · rename_i hfresh
      rw [has_table_iff] at hfresh
      intro hdistinct
      refine ⟨?_, ?_⟩
      · show (List.map _ (schema.tables ++ [_])).Nodup
        rw [List.map_append]
        exact List.nodup_append.mpr ⟨hdistinct, by simp, by simp; grind [tableNames]⟩
      · show Addition.apply schema.plan (.table name) = plan { schema with tables := _ }
        simp [Addition.apply, plan, Table.fieldNames]

/-- Work on the last table that is recorded of the table is recorded of the schema. -/
theorem on_last_table_recorded (schema : Schema) {work : Table → Progress SchemaError Table}
    (hwork : ∀ table : Table, table.Recorded (work table).journal (work table).value) :
    schema.Recorded (schema.onLastTable work).journal (schema.onLastTable work).value := by
  rcases List.eq_nil_or_concat schema.tables with hnil | ⟨tables, table, htables⟩
  · have hnone : schema.onLastTable work = .pure schema := by simp [onLastTable, hnil]
    rw [hnone]
    exact tracks_recorded.refl schema
  · have hschema : schema = { schema with tables := tables ++ [table] } := by
      rw [← List.concat_eq_append, ← htables]
    obtain ⟨hname, names, hfields, hadditions⟩ := hwork table
    rw [hschema, on_last_table_concat]
    intro hdistinct
    have hlast (reached : Table) : plan { schema with tables := tables ++ [reached] } =
        tables.map (fun table => (table.name, table.fieldNames)) ++
          [(reached.name, reached.fieldNames)] := by
      simp [plan]
    have hnames (reached : Table) : tableNames { schema with tables := tables ++ [reached] } =
        tables.map (·.name) ++ [reached.name] := by
      simp [tableNames]
    rw [hnames] at hdistinct
    refine ⟨?_, ?_⟩
    · show (tableNames { schema with tables := tables ++ [(work table).value] }).Nodup
      rw [hnames, hname]
      exact hdistinct
    · show (work table).journal.additions.foldl _ _ =
        plan { schema with tables := tables ++ [(work table).value] }
      have hfresh : table.name ∉
          (tables.map fun table => (table.name, table.fieldNames)).map (·.1) := by
        rw [List.map_map]
        exact fun hmem => (List.nodup_append.mp hdistinct).2.2 _ hmem _ (by simp) rfl
      rw [hlast, hlast, hadditions, Addition.fold_fields hfresh, hname, hfields]

/-- A run on a schema without tables is recorded: its journal draws the plan of what it leaves. -/
theorem Recorded.replay_eq {schema reached : Schema} {journal : Journal}
    (h : schema.Recorded journal reached) (hempty : schema.tables = []) :
    journal.replay = reached.plan := by
  obtain ⟨-, hplan⟩ := h (by simp [tableNames, hempty])
  rwa [plan, hempty] at hplan

end Schema

theorem TableDraft.fill_recorded (draft : TableDraft) (table : Table) :
    table.Recorded (draft.fill table).journal (draft.fill table).value := by
  refine Table.tracks_recorded.andThen
    (Table.tracks_recorded.through Table.add_field_recorded table draft.fields) ?_
  cases draft.key? with
  | none => exact Table.tracks_recorded.refl _
  | some key => exact Table.set_primary_key_recorded _ key

namespace Draft

theorem add_table_recorded (schema : Schema) (draft : TableDraft) :
    schema.Recorded (addTable schema draft).journal (addTable schema draft).value :=
  Schema.tracks_recorded.andThen (schema.add_table_recorded draft.name)
    (Schema.on_last_table_recorded _ draft.fill_recorded)

theorem build_recorded (draft : Draft) :
    Schema.Recorded { name := draft.name } draft.build.journal draft.build.value :=
  Schema.tracks_recorded.andThen
    (Schema.tracks_recorded.through add_table_recorded _ draft.tables)
    (Schema.recorded_silent _ (Event.addition_eq_none rfl))

end Draft

namespace Schema

/-- The journal of loading a document draws what was built, also when it is refused on the way. -/
theorem replay_load (format : Format) (text : String) :
    (load format text).journal.replay = (load format text).value.plan := by
  unfold load
  split
  · rfl
  · rename_i draft _
    exact draft.build_recorded.replay_eq rfl

theorem replay_load_file (files : Files) (path : String) :
    (loadFile files path).journal.replay = (loadFile files path).value.plan := by
  have hsilent (journal : Journal) : Journal.replay (loading path :: journal) = journal.replay := by
    rw [Journal.replay, Journal.additions_cons_silent (Event.addition_eq_none rfl), Journal.replay]
  rw [loadFile, Progress.andThen_of_none rfl]
  cases files.readText path with
  | error reason => exact hsilent []
  | ok text => exact (hsilent _).trans (replay_load (.ofPath path) text)

end Schema

end Schemata
