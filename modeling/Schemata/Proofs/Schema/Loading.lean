import Schemata.Proofs.Schema.Drafts

/-!
# Loading drafts

When building a draft succeeds, what it then gives, and which refusal it meets otherwise. `Loadable`
asks for proper names and for keys that name fields; `build_exact` says that exactly such drafts are
built, each table with its key registered and flagged, and that any other draft is refused at its
first violation, `Refused`: everything before it is in order.
-/

namespace Schemata

namespace Table

/-- A field with its flag on if it is the one to register. -/
def flagged (key? : Option String) (field : Field) : Field :=
  { field with isPrimaryKey := field.isPrimaryKey || key? == some field.name }

@[simp] theorem flagged_none (field : Field) : flagged none field = field := by
  simp [flagged]

theorem flagged_self (field : Field) :
    flagged (some field.name) field = { field with isPrimaryKey := true } := by
  simp [flagged]

theorem flagged_of_ne {key : String} {field : Field} (h : field.name ≠ key) :
    flagged (some key) field = field := by
  have hkey : (key == field.name) = false := by simpa using Ne.symm h
  simp [flagged, hkey]

/-- Among distinct names, flagging the first field of a name flags the fields of this name. -/
theorem flag_first_eq {before after : List Field} {field : Field}
    (h : ((before ++ field :: after).map (·.name)).Nodup) :
    before ++ { field with isPrimaryKey := true } :: after =
      (before ++ field :: after).map (flagged (some field.name)) := by
  rw [List.map_append, List.map_cons] at h
  obtain ⟨-, hrest, hdisjoint⟩ := List.nodup_append.mp h
  obtain ⟨hafter, -⟩ := List.nodup_cons.mp hrest
  have hkept (fields : List Field) (hnames : ∀ other ∈ fields, other.name ≠ field.name) :
      fields.map (flagged (some field.name)) = fields :=
    (List.map_congr_left fun other hother => flagged_of_ne (hnames other hother)).trans
      (List.map_id _)
  have hbefore : before.map (flagged (some field.name)) = before := by
    refine hkept before fun other hother => ?_
    exact hdisjoint other.name (List.mem_map_of_mem hother) field.name (by simp)
  have hbehind : after.map (flagged (some field.name)) = after := by
    refine hkept after fun other hother heq => hafter ?_
    exact heq ▸ List.mem_map_of_mem hother
  rw [List.map_append, List.map_cons, hbefore, hbehind, flagged_self]

/-- A key is registered when it is one of the names of the fields, and then its field is flagged. -/
theorem register_eq_ok_iff {table reached : Table} {key? : Option String}
    (h : ProperNames table.fieldNames) :
    table.register key? = .ok reached ↔
      (∀ key, key? = some key → key ∈ table.fieldNames) ∧
        reached = { table with
          fields := table.fields.map (flagged key?)
          primaryKey := key?.or table.primaryKey } := by
  cases key? with
  | none =>
      have hfields : table.fields.map (flagged none) = table.fields :=
        (List.map_congr_left fun field _ => flagged_none field).trans (List.map_id _)
      rw [hfields]
      show Except.ok table = .ok reached ↔ _
      simp [eq_comm (a := table)]
  | some key =>
      show (table.setPrimaryKey key).result = .ok reached ↔ _
      rw [set_primary_key_result_eq_ok_iff]
      have hnodup := h.distinct
      constructor
      · rintro ⟨before, field, after, hfields, rfl, -, rfl⟩
        rw [fieldNames, hfields] at hnodup
        rw [flag_first_eq hnodup, ← hfields]
        refine ⟨fun key hkey => ?_, rfl⟩
        obtain rfl := Option.some.inj hkey
        simp [fieldNames, hfields]
      · rintro ⟨hkey, rfl⟩
        obtain ⟨before, field, after, hfields, rfl, hbefore⟩ := split_at_field (hkey key rfl)
        rw [fieldNames, hfields] at hnodup
        refine ⟨before, field, after, hfields, rfl, hbefore, ?_⟩
        rw [flag_first_eq hnodup, ← hfields]
        rfl

/-- A key is refused when no field has its name. -/
theorem register_eq_error_iff {table : Table} {key? : Option String} {reason : SchemaError} :
    table.register key? = .error reason ↔
      ∃ key, key? = some key ∧ key ∉ table.fieldNames ∧ reason = .unknownField table.name key := by
  cases key? with
  | none => simp [register]
  | some key =>
      show (table.setPrimaryKey key).result = .error reason ↔ _
      simp [Progress.result_eq_error_iff, set_primary_key_stops_at_iff]

end Table

namespace TableDraft

variable {draft : TableDraft}

/-- A table draft that can be filled: proper names, and a key that is one of them. -/
structure Loadable (draft : TableDraft) : Prop where
  names : ProperNames (draft.fields.map (·.name))
  key : ∀ key, draft.primaryKey = some key → key ∈ draft.fields.map (·.name)

/-- The table that is built of a draft: its key is the one the draft names, else the last flagged
field, and the field of the key is flagged in addition to those the draft flags. -/
def built (draft : TableDraft) : Table :=
  let key? := draft.primaryKey.or (Table.lastFlagged? draft.fields)
  { name := draft.name, fields := draft.fields.map (Table.flagged key?), primaryKey := key? }

/-- The refusals of a table draft whose name was accepted, each for its first violation. -/
inductive Refused (draft : TableDraft) : SchemaError → Prop
  | emptyField {earlier later : List Field} {field : Field}
      (split : draft.fields = earlier ++ field :: later)
      (before : ProperNames (earlier.map (·.name))) (empty : field.name = "") :
      Refused draft (.invalidName "field" ("empty field name in table '" ++ draft.name ++ "'"))
  | duplicateField {earlier later : List Field} {field : Field}
      (split : draft.fields = earlier ++ field :: later)
      (before : ProperNames (earlier.map (·.name))) (named : field.name ≠ "")
      (taken : field.name ∈ earlier.map (·.name)) :
      Refused draft (.duplicateField draft.name field.name)
  | unknownKey {key : String} (names : ProperNames (draft.fields.map (·.name)))
      (given : draft.primaryKey = some key) (unknown : key ∉ draft.fields.map (·.name)) :
      Refused draft (.unknownField draft.name key)

/-- The key to register is a field exactly when the key that the draft names is one; a flagged field
is always one. -/
theorem key_mem_iff (draft : TableDraft) :
    (∀ key, draft.key? = some key → key ∈ draft.fields.map (·.name)) ↔
      ∀ key, draft.primaryKey = some key → key ∈ draft.fields.map (·.name) := by
  rw [key_eq]
  cases hgiven : draft.primaryKey with
  | some given => rw [Option.some_or]
  | none =>
      refine ⟨fun _ key hkey => (nomatch hkey), fun _ key hkey => ?_⟩
      rw [Option.none_or] at hkey
      obtain ⟨field, hfield, -, rfl⟩ := Table.last_flagged_mem hkey
      exact List.mem_map_of_mem hfield

theorem fill_eq_ok_iff {table : Table} :
    (draft.fill { name := draft.name }).result = .ok table ↔
      draft.Loadable ∧ table = draft.built := by
  have hregister (hnames : ProperNames (draft.fields.map (·.name))) :
      Table.register draft.key? { name := draft.name, fields := draft.fields } = .ok table ↔
        (∀ key, draft.key? = some key → key ∈ draft.fields.map (·.name)) ∧ table = draft.built := by
    have hproper : ProperNames
        (Table.fieldNames { name := draft.name, fields := draft.fields }) := hnames
    rw [Table.register_eq_ok_iff hproper, Option.or_none, built, ← key_eq]
    rfl
  rw [fill_new_eq_ok_iff]
  constructor
  · rintro ⟨hnames, hfilled⟩
    obtain ⟨hkey, rfl⟩ := (hregister hnames).mp hfilled
    exact ⟨⟨hnames, (key_mem_iff draft).mp hkey⟩, rfl⟩
  · rintro ⟨⟨hnames, hkey⟩, rfl⟩
    exact ⟨hnames, (hregister hnames).mpr ⟨(key_mem_iff draft).mpr hkey, rfl⟩⟩

/-- The fields of a draft are refused at the first one whose name is empty or taken. -/
theorem fields_refused_iff {reason : SchemaError} :
    draft.fields.foldlM Table.grow { name := draft.name } = .error reason ↔
      ∃ earlier field later, draft.fields = earlier ++ field :: later ∧
        ProperNames (earlier.map (·.name)) ∧
        (field.name = "" ∧
            reason = .invalidName "field" ("empty field name in table '" ++ draft.name ++ "'") ∨
          field.name ≠ "" ∧ field.name ∈ earlier.map (·.name) ∧
            reason = .duplicateField draft.name field.name) := by
  have hthrough (fields : List Field) :
      (Progress.through Table.addField { name := draft.name } fields).result =
        fields.foldlM Table.grow { name := draft.name } := Progress.result_through ..
  rw [← hthrough, Progress.result_eq_error_iff]
  simp only [Progress.stops_at_through_iff, hthrough, Table.grow_new_eq_ok_iff]
  constructor
  · rintro ⟨reached, earlier, field, later, middle, hsplit, ⟨hproper, rfl⟩, hstops⟩
    obtain ⟨-, hreason⟩ := Table.add_field_stops_at_iff.mp hstops
    exact ⟨earlier, field, later, hsplit, hproper, hreason⟩
  · rintro ⟨earlier, field, later, hsplit, hproper, hreason⟩
    exact ⟨_, earlier, field, later, _, hsplit, ⟨hproper, rfl⟩,
      Table.add_field_stops_at_iff.mpr ⟨rfl, hreason⟩⟩

/-- The fields come before the key. -/
theorem fill_eq_error_iff {reason : SchemaError} :
    (draft.fill { name := draft.name }).result = .error reason ↔
      draft.fields.foldlM Table.grow { name := draft.name } = .error reason ∨
        ProperNames (draft.fields.map (·.name)) ∧
          Table.register draft.key? { name := draft.name, fields := draft.fields } =
            .error reason := by
  rw [fill_result, Progress.bind_eq_error_iff]
  refine or_congr_right ?_
  simp only [Table.grow_new_eq_ok_iff]
  constructor
  · rintro ⟨filled, ⟨hnames, rfl⟩, hregister⟩
    exact ⟨hnames, hregister⟩
  · rintro ⟨hnames, hregister⟩
    exact ⟨_, ⟨hnames, rfl⟩, hregister⟩

theorem fill_refused_iff {reason : SchemaError} :
    (draft.fill { name := draft.name }).result = .error reason ↔ draft.Refused reason := by
  rw [fill_eq_error_iff, fields_refused_iff, Table.register_eq_error_iff, key_eq]
  constructor
  · rintro (⟨earlier, field, later, hsplit, hproper, hreason⟩ | ⟨hnames, key, hkey, hunknown, rfl⟩)
    · rcases hreason with ⟨hempty, rfl⟩ | ⟨hnamed, htaken, rfl⟩
      · exact .emptyField hsplit hproper hempty
      · exact .duplicateField hsplit hproper hnamed htaken
    · rcases Option.or_eq_some_iff.mp hkey with hgiven | ⟨-, hflagged⟩
      · exact .unknownKey hnames hgiven hunknown
      · obtain ⟨field, hfield, -, rfl⟩ := Table.last_flagged_mem hflagged
        exact absurd (List.mem_map_of_mem hfield) hunknown
  · intro hrefused
    cases hrefused with
    | emptyField split before empty => exact .inl ⟨_, _, _, split, before, .inl ⟨empty, rfl⟩⟩
    | duplicateField split before named taken =>
        exact .inl ⟨_, _, _, split, before, .inr ⟨named, taken, rfl⟩⟩
    | unknownKey names given unknown =>
        exact .inr ⟨names, _, Option.or_eq_some_iff.mpr (.inl given), unknown, rfl⟩

end TableDraft

namespace Draft

/-- Table drafts that can be built one after the other. -/
structure InOrder (tables : List TableDraft) : Prop where
  names : ProperNames (tables.map (·.name))
  loadable : ∀ table ∈ tables, table.Loadable

/-- The refusals of a draft, each for its first violation: the tables before it are in order, and in
its own table the name comes first. -/
inductive Refused (draft : Draft) : SchemaError → Prop
  | emptyTable {before after : List TableDraft} {table : TableDraft}
      (split : draft.tables = before ++ table :: after) (earlier : InOrder before)
      (empty : table.name = "") :
      Refused draft (.invalidName "table" "name is empty")
  | duplicateTable {before after : List TableDraft} {table : TableDraft}
      (split : draft.tables = before ++ table :: after) (earlier : InOrder before)
      (named : table.name ≠ "") (taken : table.name ∈ before.map (·.name)) :
      Refused draft (.duplicateTable table.name)
  | table {before after : List TableDraft} {table : TableDraft} {reason : SchemaError}
      (split : draft.tables = before ++ table :: after) (earlier : InOrder before)
      (named : table.name ≠ "") (fresh : table.name ∉ before.map (·.name))
      (refused : table.Refused reason) :
      Refused draft reason

theorem add_tables_eq_ok_iff {name : String} {tables : List TableDraft} {reached : Schema} :
    (Progress.through addTable { name } tables).result = .ok reached ↔
      InOrder tables ∧ reached = { name, tables := tables.map TableDraft.built } := by
  have hnames : ProperBehind (Schema.tableNames { name }) (tables.map (·.name)) ↔
      ProperNames (tables.map (·.name)) := proper_behind_nil_iff
  have hfill : ∀ draft ∈ tables, ∀ table,
      (draft.fill { name := draft.name }).result = .ok table ↔
        draft.Loadable ∧ table = draft.built :=
    fun draft _ table => TableDraft.fill_eq_ok_iff
  rw [Progress.result_through]
  refine (Schema.grow_drafts_eq_ok_iff (fun _ => rfl) hfill).trans ?_
  rw [hnames]
  constructor
  · rintro ⟨hproper, hloadable, rfl⟩
    exact ⟨⟨hproper, hloadable⟩, rfl⟩
  · rintro ⟨⟨hproper, hloadable⟩, rfl⟩
    exact ⟨hproper, hloadable, rfl⟩

/-- Behind tables in order, a table is refused for its name and then for what it holds. -/
theorem add_table_refused_iff {name : String} {before : List TableDraft} {table : TableDraft}
    {reason : SchemaError} :
    (addTable { name, tables := before.map TableDraft.built } table).result = .error reason ↔
      table.name = "" ∧ reason = .invalidName "table" "name is empty" ∨
        table.name ≠ "" ∧ table.name ∈ before.map (·.name) ∧ reason = .duplicateTable table.name ∨
        table.name ≠ "" ∧ table.name ∉ before.map (·.name) ∧ table.Refused reason := by
  have hnames : Schema.tableNames { name, tables := before.map TableDraft.built } =
      before.map (·.name) := by
    simp [Schema.tableNames, TableDraft.built, Function.comp_def]
  have hname (reached : Schema) :
      (Schema.addTable { name, tables := before.map TableDraft.built } table.name).StopsAt
          reason reached ↔
        reached = { name, tables := before.map TableDraft.built } ∧
          (table.name = "" ∧ reason = .invalidName "table" "name is empty" ∨
            table.name ≠ "" ∧ table.name ∈ before.map (·.name) ∧
              reason = .duplicateTable table.name) :=
    hnames ▸ Schema.add_table_stops_at_iff
  rw [Progress.result_eq_error_iff]
  constructor
  · rintro ⟨reached, hstops⟩
    rcases Schema.add_filled_stops_at_iff.mp hstops with hstops | ⟨hnamed, hfresh, held, hfill, -⟩
    · exact ((hname reached).mp hstops).2.imp_right .inl
    · rw [hnames] at hfresh
      have hrefused := TableDraft.fill_refused_iff.mp (Progress.result_eq_error_iff.mpr ⟨_, hfill⟩)
      exact .inr (.inr ⟨hnamed, hfresh, hrefused⟩)
  · rw [← or_assoc]
    rintro (hrefused | ⟨hnamed, hfresh, hrefused⟩)
    · exact ⟨_, Schema.add_filled_stops_at_iff.mpr (.inl ((hname _).mpr ⟨rfl, hrefused⟩))⟩
    · rw [← hnames] at hfresh
      obtain ⟨held, hfill⟩ :=
        Progress.result_eq_error_iff.mp (TableDraft.fill_refused_iff.mpr hrefused)
      exact ⟨_, Schema.add_filled_stops_at_iff.mpr (.inr ⟨hnamed, hfresh, held, hfill, rfl⟩)⟩

/-- A draft is built exactly when the names of its tables, and in each table those of its fields,
are proper and every key it names is a field of its table. It is refused exactly for its first
violation. -/
theorem build_exact (draft : Draft) :
    (∀ schema, draft.build.result = .ok schema ↔ InOrder draft.tables ∧
      schema = { name := draft.name, tables := draft.tables.map TableDraft.built, error := "" }) ∧
      ∀ reason, draft.build.result = .error reason ↔ draft.Refused reason := by
  rw [build, Progress.result_emit]
  refine ⟨fun schema => add_tables_eq_ok_iff, fun reason => ?_⟩
  rw [Progress.result_eq_error_iff]
  constructor
  · rintro ⟨reached, hstops⟩
    obtain ⟨before, table, after, middle, hsplit, hbefore, htable⟩ :=
      Progress.stops_at_through_iff.mp hstops
    obtain ⟨hearlier, rfl⟩ := add_tables_eq_ok_iff.mp hbefore
    rcases add_table_refused_iff.mp (Progress.result_eq_error_iff.mpr ⟨reached, htable⟩) with
      ⟨hempty, rfl⟩ | ⟨hnamed, htaken, rfl⟩ | ⟨hnamed, hfresh, hrefused⟩
    · exact .emptyTable hsplit hearlier hempty
    · exact .duplicateTable hsplit hearlier hnamed htaken
    · exact .table hsplit hearlier hnamed hfresh hrefused
  · intro hrefused
    have hstops (before after : List TableDraft) (table : TableDraft)
        (hsplit : draft.tables = before ++ table :: after) (hearlier : InOrder before)
        (htable : (addTable { name := draft.name, tables := before.map TableDraft.built }
          table).result = .error reason) :
        ∃ reached, (Progress.through addTable { name := draft.name } draft.tables).StopsAt
          reason reached := by
      obtain ⟨reached, htable⟩ := Progress.result_eq_error_iff.mp htable
      exact ⟨reached, Progress.stops_at_through_iff.mpr ⟨before, table, after, _, hsplit,
        add_tables_eq_ok_iff.mpr ⟨hearlier, rfl⟩, htable⟩⟩
    cases hrefused with
    | emptyTable split earlier empty =>
        exact hstops _ _ _ split earlier (add_table_refused_iff.mpr (.inl ⟨empty, rfl⟩))
    | duplicateTable split earlier named taken =>
        exact hstops _ _ _ split earlier
          (add_table_refused_iff.mpr (.inr (.inl ⟨named, taken, rfl⟩)))
    | table split earlier named fresh refused =>
        exact hstops _ _ _ split earlier
          (add_table_refused_iff.mpr (.inr (.inr ⟨named, fresh, refused⟩)))

/-- An unknown key is met before the next table's name. -/
example :
    (build { tables := [{ name := "A", primaryKey := some "x" }, { name := "A" }] }).result =
      .error (.unknownField "A" "x") := rfl

end Draft

end Schemata
