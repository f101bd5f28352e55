import Schemata.Proofs.Schema.Sessions
import Schemata.Schema.Draft

/-!
# Building drafts

What building a draft comes to. A schema can be taken back to a draft, `Schema.draft`; building that
draft gives the schema again with every flagged but unregistered key registered, exactly when the
names of its fields are proper (`build_draft_eq_ok_iff`). What building returns is settled: taken
back and built once more it is itself.
-/

namespace Schemata

namespace Table

/-- The name of the last flagged field. -/
def lastFlagged? (fields : List Field) : Option String :=
  ((fields.filter (·.isPrimaryKey)).getLast?).map (·.name)

/-- The table with its last flagged field as key, unless it has a key. -/
def keyed (table : Table) : Table :=
  { table with primaryKey := table.primaryKey.or (lastFlagged? table.fields) }

/-- The table as a draft. -/
def draft (table : Table) : TableDraft :=
  { name := table.name, fields := table.fields, primaryKey := table.primaryKey }

/-- Add a field, the journal left out. -/
def grow (table : Table) (field : Field) : Except SchemaError Table :=
  (table.addField field).result

/-- Fields can be added one after the other exactly when their names are proper behind those of the
table. -/
theorem grow_all_eq_ok_iff {table grown : Table} {fields : List Field} :
    fields.foldlM grow table = .ok grown ↔
      ProperBehind table.fieldNames (fields.map (·.name)) ∧
        grown = { table with fields := table.fields ++ fields } := by
  induction fields generalizing table with
  | nil => simp [ProperBehind.nil, pure, Except.pure, eq_comm]
  | cons field rest ih =>
      have hnames : fieldNames { table with fields := table.fields ++ [field] } =
          table.fieldNames ++ [field.name] := by
        simp [fieldNames]
      rw [Progress.fold_cons_eq_ok_iff, List.map_cons, proper_behind_cons_iff, ← hnames]
      constructor
      · rintro ⟨middle, hgrow, hall⟩
        obtain ⟨hname, hfresh, rfl⟩ := add_field_result_eq_ok_iff.mp hgrow
        obtain ⟨hproper, rfl⟩ := ih.mp hall
        exact ⟨⟨⟨hname, hfresh⟩, hproper⟩, by simp⟩
      · rintro ⟨⟨⟨hname, hfresh⟩, hproper⟩, rfl⟩
        exact ⟨_, add_field_result_eq_ok_iff.mpr ⟨hname, hfresh, rfl⟩,
          ih.mpr ⟨hproper, by simp⟩⟩

theorem grow_new_eq_ok_iff {name : String} {grown : Table} {fields : List Field} :
    fields.foldlM grow { name } = .ok grown ↔
      ProperNames (fields.map (·.name)) ∧ grown = { name, fields } := by
  rw [grow_all_eq_ok_iff, ← proper_behind_nil_iff]
  rfl

/-- The key plays no part when fields are added. -/
theorem grow_with_key (table : Table) (field : Field) (key : Option String) :
    { table with primaryKey := key }.grow field =
      (fun grown => { grown with primaryKey := key }) <$> table.grow field := by
  have hfield : hasField { table with primaryKey := key } field.name = table.hasField field.name :=
    rfl
  unfold grow addField
  rw [hfield]
  split
  · rfl
  · split
    · rfl
    · rfl

theorem grow_all_with_key (table : Table) (fields : List Field) (key : Option String) :
    fields.foldlM grow { table with primaryKey := key } =
      (fun grown => { grown with primaryKey := key }) <$> fields.foldlM grow table := by
  induction fields generalizing table with
  | nil => rfl
  | cons field rest ih =>
      rw [List.foldlM_cons, List.foldlM_cons, grow_with_key]
      cases table.grow field with
      | error reason => rfl
      | ok grown => exact ih grown

/-- Registering a field whose flag is on already only registers it. -/
theorem set_primary_key_flagged {table : Table} {name : String} {field : Field}
    (hfield : table.field? name = some field) (hflag : field.isPrimaryKey = true) :
    (table.setPrimaryKey name).result = .ok { table with primaryKey := some name } := by
  have hmem : name ∈ table.fieldNames := by
    rw [← has_field_iff, hasField, hfield]
    rfl
  obtain ⟨before, first, after, hfields, hname, hbefore⟩ := split_at_field hmem
  have hfirst : first = field := by
    rw [field_eq_first hfields hname hbefore] at hfield
    exact Option.some.inj hfield
  subst hfirst
  refine set_primary_key_result_eq_ok_iff.mpr ⟨before, first, after, hfields, hname, hbefore, ?_⟩
  rw [← hflag, ← hfields]

/-- Register a key, if there is one to register, the journal left out. -/
def register (key? : Option String) (table : Table) : Except SchemaError Table :=
  match key? with
  | none => .ok table
  | some key => (table.setPrimaryKey key).result

theorem register_flagged {table : Table} {key? : Option String}
    (h : ∀ key, key? = some key →
      ∃ field, table.field? key = some field ∧ field.isPrimaryKey = true) :
    table.register key? = .ok { table with primaryKey := key?.or table.primaryKey } := by
  cases key? with
  | none => rfl
  | some key =>
      obtain ⟨field, hfield, hflag⟩ := h key rfl
      exact set_primary_key_flagged hfield hflag

theorem last_flagged_cons (field : Field) (rest : List Field) :
    lastFlagged? (field :: rest) =
      (lastFlagged? rest).or (if field.isPrimaryKey then some field.name else none) := by
  unfold lastFlagged?
  cases hflag : field.isPrimaryKey with
  | false => simp [hflag]
  | true =>
      rw [List.filter_cons_of_pos hflag, List.getLast?_cons]
      cases (rest.filter (·.isPrimaryKey)).getLast? <;> rfl

theorem last_flagged_eq_none_iff {fields : List Field} :
    lastFlagged? fields = none ↔ ∀ field ∈ fields, field.isPrimaryKey = false := by
  simp [lastFlagged?]

theorem last_flagged_mem {fields : List Field} {name : String}
    (h : lastFlagged? fields = some name) :
    ∃ field ∈ fields, field.isPrimaryKey = true ∧ field.name = name := by
  obtain ⟨field, hlast, rfl⟩ := Option.map_eq_some_iff.mp h
  have hmem := List.mem_of_getLast? hlast
  rw [List.mem_filter] at hmem
  exact ⟨field, hmem.1, hmem.2, rfl⟩

/-- Among distinct names the last flagged field is the first of its name. -/
theorem field_last_flagged {table : Table} {name : String} (hnames : ProperNames table.fieldNames)
    (h : lastFlagged? table.fields = some name) :
    ∃ field, table.field? name = some field ∧ field.isPrimaryKey = true := by
  obtain ⟨field, hmem, hflag, rfl⟩ := last_flagged_mem h
  obtain ⟨before, after, hfields⟩ := List.append_of_mem hmem
  refine ⟨field, field_eq_first hfields rfl fun other hother => ?_, hflag⟩
  have hnodup := hnames.distinct
  rw [fieldNames, hfields, List.map_append, List.nodup_append] at hnodup
  exact hnodup.2.2 other.name (List.mem_map_of_mem hother) field.name (by simp)

/-- A table that building its draft gives back. -/
structure Settled (table : Table) : Prop where
  names : ProperNames table.fieldNames
  key : table.KeyFlagged
  flags : table.primaryKey = none → ∀ field ∈ table.fields, field.isPrimaryKey = false

theorem Settled.empty (name : String) : Settled { name } where
  names := ProperNames.nil
  key _ hkey := nomatch hkey
  flags := by simp

/-- A fresh field that becomes the key when it is flagged leaves the table settled. -/
theorem Settled.concat {table : Table} {field : Field} (h : table.Settled) (hname : field.name ≠ "")
    (hfresh : field.name ∉ table.fieldNames) :
    Settled { table with
      fields := table.fields ++ [field]
      primaryKey := if field.isPrimaryKey then some field.name else table.primaryKey } where
  names := by simpa [fieldNames] using proper_names_concat_iff.mpr ⟨h.names, hname, hfresh⟩
  key key hkey := by
    cases hflag : field.isPrimaryKey with
    | true =>
        obtain rfl : field.name = key := by simpa [hflag] using hkey
        refine ⟨field, field_eq_first rfl rfl fun other hother hsame => hfresh ?_, hflag⟩
        exact List.mem_map.mpr ⟨other, hother, hsame⟩
    | false =>
        obtain ⟨first, hfirst, hfirstFlag⟩ := h.key key (by simpa [hflag] using hkey)
        refine ⟨first, ?_, hfirstFlag⟩
        rw [field?] at hfirst ⊢
        rw [List.find?_append, hfirst]
        rfl
  flags hkey other hother := by
    cases hflag : field.isPrimaryKey with
    | true => simp [hflag] at hkey
    | false =>
        rcases List.mem_append.mp hother with hother | hother
        · exact h.flags (by simpa [hflag] using hkey) other hother
        · exact List.mem_singleton.mp hother ▸ hflag

theorem Settled.keyed_eq {table : Table} (h : table.Settled) : table.keyed = table := by
  cases hkey : table.primaryKey with
  | none => rw [keyed, last_flagged_eq_none_iff.mpr (h.flags hkey), Option.or_none]
  | some key => rw [keyed, hkey, Option.some_or, ← hkey]

end Table

namespace TableDraft

/-- The table that a draft describes, its flags and its key taken as they stand. -/
def table (draft : TableDraft) : Table :=
  { name := draft.name, fields := draft.fields, primaryKey := draft.primaryKey }

theorem key_eq (draft : TableDraft) :
    draft.key? = draft.primaryKey.or (Table.lastFlagged? draft.fields) := by
  rw [key?, Table.lastFlagged?, List.getLast?_filter]
  cases draft.primaryKey <;> rfl

/-- A draft is filled in two stages, its fields and its key. -/
theorem fill_result (draft : TableDraft) (table : Table) :
    (draft.fill table).result =
      draft.fields.foldlM Table.grow table >>= Table.register draft.key? := by
  rw [fill, Progress.result_andThen, Progress.result_through]
  congr 1
  funext filled
  cases draft.key? <;> rfl

/-- A new table takes proper names only, and then the key. -/
theorem fill_new_eq_ok_iff {draft : TableDraft} {name : String} {table : Table} :
    (draft.fill { name }).result = .ok table ↔
      ProperNames (draft.fields.map (·.name)) ∧
        Table.register draft.key? { name, fields := draft.fields } = .ok table := by
  rw [fill_result, Progress.bind_eq_ok_iff]
  simp only [Table.grow_new_eq_ok_iff]
  constructor
  · rintro ⟨filled, ⟨hnames, rfl⟩, hregister⟩
    exact ⟨hnames, hregister⟩
  · rintro ⟨hnames, hregister⟩
    exact ⟨_, ⟨hnames, rfl⟩, hregister⟩

theorem fill_settled {draft : TableDraft} {name : String} {table : Table}
    (h : (draft.fill { name }).result = .ok table) : table.name = name ∧ table.Settled := by
  obtain ⟨hnames, hregister⟩ := fill_new_eq_ok_iff.mp h
  cases hkey : draft.key? with
  | none =>
      rw [hkey] at hregister
      injection hregister with htable
      subst htable
      rw [key_eq] at hkey
      exact ⟨rfl, hnames, fun _ hregistered => (nomatch hregistered),
        fun _ => Table.last_flagged_eq_none_iff.mp (Option.or_eq_none_iff.mp hkey).2⟩
  | some key =>
      rw [hkey] at hregister
      obtain ⟨before, field, after, hfields, hname, hbefore, rfl⟩ :=
        Table.set_primary_key_result_eq_ok_iff.mp hregister
      refine ⟨rfl, ?_, ?_, fun hnone => (nomatch hnone)⟩
      · rw [show draft.fields = before ++ field :: after from hfields] at hnames
        simpa [Table.fieldNames] using hnames
      · intro other hother
        obtain rfl : key = other := Option.some.inj hother
        exact ⟨_, Table.field_eq_first rfl hname hbefore, rfl⟩

end TableDraft

namespace Table

/-- Filling a table's own draft registers its key and changes nothing else. -/
theorem fill_draft_eq_ok_iff {table reached : Table} (hkey : table.KeyFlagged) :
    (table.draft.fill { name := table.name }).result = .ok reached ↔
      ProperNames table.fieldNames ∧ reached = table.keyed := by
  rw [TableDraft.fill_new_eq_ok_iff]
  refine and_congr_right fun hnames => ?_
  have hnames : ProperNames table.fieldNames := hnames
  have hdraft : table.draft.key? = table.primaryKey.or (lastFlagged? table.fields) :=
    TableDraft.key_eq table.draft
  -- whichever key is to be registered, the first field of its name is flagged already
  have hfield : ∀ key, table.draft.key? = some key →
      ∃ field, field? { name := table.name, fields := table.fields } key = some field ∧
        field.isPrimaryKey = true := by
    intro key h
    rw [hdraft] at h
    rcases Option.or_eq_some_iff.mp h with h | ⟨-, h⟩
    · exact hkey key h
    · exact field_last_flagged hnames h
  have hregister := register_flagged hfield
  rw [hdraft, Option.or_none] at hregister
  rw [show table.draft.fields = table.fields from rfl, hdraft, hregister, keyed]
  simp [eq_comm]

end Table

namespace Schema

/-- The schema as a draft. -/
def draft (schema : Schema) : Draft :=
  { name := schema.name, tables := schema.tables.map Table.draft }

/-- The schema without its message and with the last flagged field of each table as its key, unless
the table has one. -/
def reloaded (schema : Schema) : Schema :=
  { name := schema.name, tables := schema.tables.map Table.keyed }

/-- Whether the fields of every table have proper names. -/
def FieldsProper (schema : Schema) : Prop :=
  ∀ table ∈ schema.tables, ProperNames table.fieldNames

/-- Add a table and fill it, the journal left out. -/
theorem add_filled_result (schema : Schema) (name : String)
    (fill : Table → Progress SchemaError Table) :
    ((schema.addTable name).andThen (·.onLastTable fill)).result =
      (schema.addTable name).result >>= fun _ =>
        (fun table => { schema with tables := schema.tables ++ [table] }) <$>
          (fill { name }).result := by
  rw [Progress.result_andThen]
  cases hadd : (schema.addTable name).result with
  | error reason => rfl
  | ok grown =>
      obtain ⟨-, -, rfl⟩ := add_table_result_eq_ok_iff.mp hadd
      show (onLastTable _ fill).result = _
      rw [on_last_table_concat, Progress.result_map]
      rfl

theorem add_filled_eq_ok_iff {schema reached : Schema} {name : String}
    {fill : Table → Progress SchemaError Table} :
    ((schema.addTable name).andThen (·.onLastTable fill)).result = .ok reached ↔
      name ≠ "" ∧ name ∉ schema.tableNames ∧ ∃ table, (fill { name }).result = .ok table ∧
        reached = { schema with tables := schema.tables ++ [table] } := by
  rw [add_filled_result, Progress.bind_eq_ok_iff]
  simp only [Progress.map_eq_ok_iff, add_table_result_eq_ok_iff]
  constructor
  · rintro ⟨grown, ⟨hname, hfresh, -⟩, table, htable, rfl⟩
    exact ⟨hname, hfresh, table, htable, rfl⟩
  · rintro ⟨hname, hfresh, table, htable, rfl⟩
    exact ⟨_, ⟨hname, hfresh, rfl⟩, table, htable, rfl⟩

/-- A table is refused for its name or, behind the others, where filling it stops. -/
theorem add_filled_stops_at_iff {schema reached : Schema} {name : String}
    {fill : Table → Progress SchemaError Table} {reason : SchemaError} :
    ((schema.addTable name).andThen (·.onLastTable fill)).StopsAt reason reached ↔
      (schema.addTable name).StopsAt reason reached ∨
        name ≠ "" ∧ name ∉ schema.tableNames ∧ ∃ table, (fill { name }).StopsAt reason table ∧
          reached = { schema with tables := schema.tables ++ [table] } := by
  rw [Progress.stops_at_andThen_iff]
  refine or_congr_right ?_
  simp only [add_table_result_eq_ok_iff]
  constructor
  · rintro ⟨grown, ⟨hname, hfresh, rfl⟩, hstops⟩
    rw [on_last_table_concat, Progress.stops_at_map_iff] at hstops
    obtain ⟨table, htable, rfl⟩ := hstops
    exact ⟨hname, hfresh, table, htable, rfl⟩
  · rintro ⟨hname, hfresh, table, htable, rfl⟩
    refine ⟨_, ⟨hname, hfresh, rfl⟩, ?_⟩
    rw [on_last_table_concat, Progress.stops_at_map_iff]
    exact ⟨table, htable, rfl⟩

/-- Add the table of a draft, the journal left out. -/
def grow (schema : Schema) (draft : TableDraft) : Except SchemaError Schema :=
  (Draft.addTable schema draft).result

/-- Drafts can be added one after the other exactly when their names are proper behind those of the
schema and each of them can be filled. -/
theorem grow_drafts_eq_ok_iff {drafts : List TableDraft} {Fits : TableDraft → Prop}
    {made : TableDraft → Table} {schema reached : Schema}
    (hname : ∀ draft, (made draft).name = draft.name)
    (hfill : ∀ draft ∈ drafts, ∀ table,
      (draft.fill { name := draft.name }).result = .ok table ↔ Fits draft ∧ table = made draft) :
    drafts.foldlM grow schema = .ok reached ↔
      ProperBehind schema.tableNames (drafts.map (·.name)) ∧ (∀ draft ∈ drafts, Fits draft) ∧
        reached = { schema with tables := schema.tables ++ drafts.map made } := by
  induction drafts generalizing schema with
  | nil => simp [ProperBehind.nil, pure, Except.pure, eq_comm]
  | cons draft rest ih =>
      obtain ⟨hfirst, hrest⟩ := List.forall_mem_cons.mp hfill
      have hnames : tableNames { schema with tables := schema.tables ++ [made draft] } =
          schema.tableNames ++ [draft.name] := by
        simp [tableNames, hname]
      rw [Progress.fold_cons_eq_ok_iff, List.map_cons, proper_behind_cons_iff, ← hnames,
        List.forall_mem_cons]
      constructor
      · rintro ⟨grown, hgrow, hall⟩
        obtain ⟨hdraft, hfresh, table, htable, rfl⟩ := add_filled_eq_ok_iff.mp hgrow
        obtain ⟨hfits, rfl⟩ := (hfirst table).mp htable
        obtain ⟨hproper, hothers, rfl⟩ := (ih hrest).mp hall
        exact ⟨⟨⟨hdraft, hfresh⟩, hproper⟩, ⟨hfits, hothers⟩, by simp⟩
      · rintro ⟨⟨⟨hdraft, hfresh⟩, hproper⟩, ⟨hfits, hothers⟩, rfl⟩
        have htable := (hfirst (made draft)).mpr ⟨hfits, rfl⟩
        exact ⟨_, add_filled_eq_ok_iff.mpr ⟨hdraft, hfresh, _, htable, rfl⟩,
          (ih hrest).mpr ⟨hproper, hothers, by simp⟩⟩

/-- Tables taken back to drafts can be added one after the other exactly when the names of their
fields are proper; their own names are proper already. -/
theorem grow_all_eq_ok_iff {schema reached : Schema} {tables : List Table}
    (hnames : ProperNames (schema.tableNames ++ tables.map (·.name)))
    (hkeys : ∀ table ∈ tables, table.KeyFlagged) :
    (tables.map Table.draft).foldlM grow schema = .ok reached ↔
      (∀ table ∈ tables, ProperNames table.fieldNames) ∧
        reached = { schema with tables := schema.tables ++ tables.map Table.keyed } := by
  have hbehind : ProperBehind schema.tableNames ((tables.map Table.draft).map (·.name)) := by
    rw [List.map_map]
    exact (proper_names_append_iff.mp hnames).2
  have hfill : ∀ draft ∈ tables.map Table.draft, ∀ table,
      (draft.fill { name := draft.name }).result = .ok table ↔
        ProperNames (draft.fields.map (·.name)) ∧ table = draft.table.keyed := by
    intro draft hdraft table
    obtain ⟨origin, horigin, rfl⟩ := List.mem_map.mp hdraft
    exact Table.fill_draft_eq_ok_iff (hkeys origin horigin)
  have hmade : (tables.map Table.draft).map (·.table.keyed) = tables.map Table.keyed := by
    rw [List.map_map]
    rfl
  rw [grow_drafts_eq_ok_iff (fun _ => rfl) hfill, hmade, and_iff_right hbehind, List.forall_mem_map]
  rfl

/-- Building the draft of a sound schema gives it back without its message and with its keys
registered, exactly when the names of its fields are proper. -/
theorem build_draft_eq_ok_iff {schema reached : Schema} (h : schema.Sound) :
    schema.draft.build.result = .ok reached ↔ schema.FieldsProper ∧ reached = schema.reloaded := by
  have hnames : ProperNames (tableNames { name := schema.name } ++ schema.tables.map (·.name)) :=
    h.names
  rw [Draft.build, Progress.result_emit, Progress.result_through]
  exact grow_all_eq_ok_iff hnames h.keys

/-- A schema that building its draft gives back. -/
structure Settled (schema : Schema) : Prop where
  names : ProperNames schema.tableNames
  tables : ∀ table ∈ schema.tables, table.Settled
  error : schema.error = ""

theorem Settled.empty (name : String) : Settled { name } where
  names := ProperNames.nil
  tables := by simp
  error := rfl

theorem Settled.sound {schema : Schema} (h : schema.Settled) : schema.Sound :=
  ⟨h.names, fun table htable => (h.tables table htable).key⟩

theorem Settled.build_draft {schema : Schema} (h : schema.Settled) :
    schema.draft.build.result = .ok schema := by
  have htables : schema.tables.map Table.keyed = schema.tables :=
    (List.map_congr_left fun table htable => (h.tables table htable).keyed_eq).trans
      (List.map_id _)
  refine (build_draft_eq_ok_iff h.sound).mpr ⟨fun table htable => (h.tables table htable).names, ?_⟩
  rw [reloaded, htables, ← h.error]

/-- A settled table can be added to a settled schema under a fresh name. -/
theorem Settled.concat {schema : Schema} {table : Table} (h : schema.Settled)
    (htable : table.Settled) (hname : table.name ≠ "") (hfresh : table.name ∉ schema.tableNames) :
    Settled { schema with tables := schema.tables ++ [table] } where
  names := by simpa [tableNames] using proper_names_concat_iff.mpr ⟨h.names, hname, hfresh⟩
  tables other hother := by
    rcases List.mem_append.mp hother with hother | hother
    · exact h.tables other hother
    · exact List.mem_singleton.mp hother ▸ htable
  error := h.error

end Schema

/-- Every schema that is built from a draft is settled. -/
theorem Draft.build_settled {draft : Draft} {schema : Schema}
    (h : draft.build.result = .ok schema) : schema.Settled := by
  rw [build, Progress.result_emit] at h
  refine Progress.result_through_keeps ?_ h (Schema.Settled.empty draft.name)
  intro before table after hadd hbefore
  obtain ⟨hname, hfresh, filled, hfill, rfl⟩ := Schema.add_filled_eq_ok_iff.mp hadd
  obtain ⟨hfilled, hsettled⟩ := TableDraft.fill_settled hfill
  rw [← hfilled] at hname hfresh
  exact hbefore.concat hsettled hname hfresh

end Schemata
