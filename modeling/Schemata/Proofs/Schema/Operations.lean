import Schemata.Proofs.Journal
import Schemata.Schema.Basic

/-!
# Operations on schemas and tables

When each operation succeeds and what it then leaves. `add_field_result_eq_ok_iff`,
`set_primary_key_result_eq_ok_iff` and `add_table_result_eq_ok_iff` say everything that a success
means, the `_stops_at_iff` lemmas why each is refused, the `_refused` lemmas that a refusal changes
nothing; nothing below them unfolds an operation.
-/

namespace Schemata

/-- Names that can stand beside each other: none is empty and no two are equal. -/
structure ProperNames (names : List String) : Prop where
  nonempty : "" ∉ names
  distinct : names.Nodup

theorem ProperNames.nil : ProperNames [] := ⟨by simp, .nil⟩

/-- A fresh name may follow proper names, and no other may. -/
theorem proper_names_concat_iff {names : List String} {name : String} :
    ProperNames (names ++ [name]) ↔ ProperNames names ∧ name ≠ "" ∧ name ∉ names := by
  constructor
  · rintro ⟨hempty, hnodup⟩
    rw [List.mem_append, List.mem_singleton, not_or] at hempty
    obtain ⟨hnames, -, hdisjoint⟩ := List.nodup_append.mp hnodup
    refine ⟨⟨hempty.1, hnames⟩, Ne.symm hempty.2, fun h => ?_⟩
    exact hdisjoint name h name (by simp) rfl
  · rintro ⟨⟨hempty, hnodup⟩, hname, hfresh⟩
    refine ⟨by simp [hempty, Ne.symm hname], ?_⟩
    rw [List.nodup_append]
    refine ⟨hnodup, by simp, fun first hfirst second hsecond => ?_⟩
    rw [List.mem_singleton] at hsecond
    subst hsecond
    exact fun h => hfresh (h ▸ hfirst)

/-- Names that can be added behind others: none is empty or one of the others, and no two are
equal. -/
structure ProperBehind (taken names : List String) : Prop where
  nonempty : "" ∉ names
  fresh : ∀ name ∈ names, name ∉ taken
  distinct : names.Nodup

theorem ProperBehind.nil (taken : List String) : ProperBehind taken [] :=
  ⟨by simp, by simp, .nil⟩

theorem proper_behind_nil_iff {names : List String} : ProperBehind [] names ↔ ProperNames names :=
  ⟨fun h => ⟨h.nonempty, h.distinct⟩, fun h => ⟨h.nonempty, by simp, h.distinct⟩⟩

/-- Names are added one after the other. -/
theorem proper_behind_cons_iff {taken rest : List String} {name : String} :
    ProperBehind taken (name :: rest) ↔
      (name ≠ "" ∧ name ∉ taken) ∧ ProperBehind (taken ++ [name]) rest := by
  constructor
  · rintro ⟨hempty, hfresh, hnodup⟩
    obtain ⟨hfirst, hrest⟩ := List.forall_mem_cons.mp hfresh
    rw [List.mem_cons, not_or] at hempty
    obtain ⟨hname, hnodup⟩ := List.nodup_cons.mp hnodup
    refine ⟨⟨Ne.symm hempty.1, hfirst⟩, hempty.2, fun other hother => ?_, hnodup⟩
    rw [List.mem_append, List.mem_singleton, not_or]
    exact ⟨hrest other hother, fun heq => hname (heq ▸ hother)⟩
  · rintro ⟨⟨hname, hfirst⟩, hempty, hfresh, hnodup⟩
    have hrest (other : String) (hother : other ∈ rest) : other ∉ taken ∧ other ≠ name := by
      simpa [not_or] using hfresh other hother
    refine ⟨by simp [hempty, Ne.symm hname], ?_, List.nodup_cons.mpr ⟨?_, hnodup⟩⟩
    · exact List.forall_mem_cons.mpr ⟨hfirst, fun other hother => (hrest other hother).1⟩
    · exact fun hmem => (hrest name hmem).2 rfl

theorem proper_names_append_iff {taken names : List String} :
    ProperNames (taken ++ names) ↔ ProperNames taken ∧ ProperBehind taken names := by
  constructor
  · rintro ⟨hempty, hnodup⟩
    rw [List.mem_append, not_or] at hempty
    obtain ⟨htaken, hnames, hdisjoint⟩ := List.nodup_append.mp hnodup
    exact ⟨⟨hempty.1, htaken⟩, hempty.2,
      fun name hname hmem => hdisjoint name hmem name hname rfl, hnames⟩
  · rintro ⟨⟨hempty, htaken⟩, hnonempty, hfresh, hnames⟩
    refine ⟨by simp [hempty, hnonempty], List.nodup_append.mpr ⟨htaken, hnames, ?_⟩⟩
    intro first hfirst second hsecond heq
    exact hfresh second hsecond (heq ▸ hfirst)

namespace Table

/-- The names of the fields in order. -/
def fieldNames (table : Table) : List String :=
  table.fields.map (·.name)

theorem has_field_iff {table : Table} {name : String} :
    table.hasField name = true ↔ name ∈ table.fieldNames := by
  simp [hasField, field?, fieldNames, List.find?_isSome]

theorem field_eq_first {table : Table} {before after : List Field} {field : Field} {name : String}
    (hfields : table.fields = before ++ field :: after) (hname : field.name = name)
    (hbefore : ∀ other ∈ before, other.name ≠ name) : table.field? name = some field := by
  have hnone : before.find? (·.name == name) = none := by
    simpa [List.find?_eq_none] using hbefore
  simp [field?, hfields, hnone, hname]

/-- The first field of a name splits the fields around it. -/
theorem split_at_field {fields : List Field} {name : String}
    (h : name ∈ fields.map (·.name)) :
    ∃ before field after, fields = before ++ field :: after ∧ field.name = name ∧
      ∀ other ∈ before, other.name ≠ name := by
  induction fields with
  | nil => simp at h
  | cons first rest ih =>
      by_cases hfirst : first.name = name
      · exact ⟨[], first, rest, rfl, hfirst, by simp⟩
      · have hrest : name ∈ rest.map (·.name) := by
          simpa [Ne.symm hfirst] using h
        obtain ⟨before, field, after, rfl, hname, hbefore⟩ := ih hrest
        refine ⟨first :: before, field, after, rfl, hname, fun other hother => ?_⟩
        rcases List.mem_cons.mp hother with rfl | hother
        · exact hfirst
        · exact hbefore other hother

theorem update_first_split {before : List Field} {field : Field} {name : String}
    (change : Field → Field) (after : List Field) (hname : field.name = name)
    (hbefore : ∀ other ∈ before, other.name ≠ name) :
    updateFirst name change (before ++ field :: after) = before ++ change field :: after := by
  induction before with
  | nil => simp [updateFirst, hname]
  | cons first rest ih =>
      have hfirst : first.name ≠ name := hbefore first (by simp)
      have hrest := ih fun other hother => hbefore other (by simp [hother])
      simp [updateFirst, hfirst, hrest]

theorem add_field_result_eq_ok_iff {table grown : Table} {field : Field} :
    (table.addField field).result = .ok grown ↔
      field.name ≠ "" ∧ field.name ∉ table.fieldNames ∧
        grown = { table with fields := table.fields ++ [field] } := by
  have hfield : table.hasField field.name = true ↔ field.name ∈ table.fieldNames := has_field_iff
  unfold addField
  split
  · rename_i hempty
    simp [String.isEmpty_iff.mp hempty]
  · rename_i hempty
    rw [String.isEmpty_iff] at hempty
    split
    · rename_i htaken
      simp [hfield.mp htaken]
    · rename_i hfresh
      rw [hfield] at hfresh
      simp [hempty, hfresh, eq_comm]

/-- A field is refused for its name: an empty one first, then one that is taken. -/
theorem add_field_stops_at_iff {table reached : Table} {field : Field} {reason : SchemaError} :
    (table.addField field).StopsAt reason reached ↔
      reached = table ∧
        (field.name = "" ∧
            reason = .invalidName "field" ("empty field name in table '" ++ table.name ++ "'") ∨
          field.name ≠ "" ∧ field.name ∈ table.fieldNames ∧
            reason = .duplicateField table.name field.name) := by
  have hfield : table.hasField field.name = true ↔ field.name ∈ table.fieldNames := has_field_iff
  unfold addField
  split
  · rename_i hempty
    simp [String.isEmpty_iff.mp hempty, and_comm, eq_comm]
  · rename_i hempty
    rw [String.isEmpty_iff] at hempty
    split
    · rename_i htaken
      simp [hempty, hfield.mp htaken, and_comm, eq_comm]
    · rename_i hfresh
      rw [hfield] at hfresh
      simp [hempty, hfresh]

theorem add_field_refused {table : Table} {field : Field}
    (h : (table.addField field).failure ≠ none) : (table.addField field).value = table := by
  unfold addField at h ⊢
  split
  · rfl
  · split
    · rfl
    · simp_all [Progress.step]

theorem set_primary_key_result_eq_ok_iff {table keyed : Table} {name : String} :
    (table.setPrimaryKey name).result = .ok keyed ↔
      ∃ before field after, table.fields = before ++ field :: after ∧ field.name = name ∧
        (∀ other ∈ before, other.name ≠ name) ∧
        keyed = { table with
          fields := before ++ { field with isPrimaryKey := true } :: after
          primaryKey := some name } := by
  have hfield : table.hasField name = true ↔ name ∈ table.fieldNames := has_field_iff
  unfold setPrimaryKey
  split
  · rename_i hknown
    obtain ⟨before, field, after, hfields, hname, hbefore⟩ := split_at_field (hfield.mp hknown)
    have hupdate := update_first_split (fun field => { field with isPrimaryKey := true }) after
      hname hbefore
    rw [hfields, hupdate]
    constructor
    · rintro h
      cases h
      exact ⟨before, field, after, rfl, hname, hbefore, rfl⟩
    · rintro ⟨before', field', after', hsplit, hname', hbefore', rfl⟩
      have hupdate' := update_first_split (fun field => { field with isPrimaryKey := true }) after'
        hname' hbefore'
      rw [← hsplit, hupdate] at hupdate'
      rw [hupdate']
      rfl
  · rename_i hunknown
    constructor
    · intro h
      cases h
    · rintro ⟨before, field, after, hfields, hname, -, -⟩
      exact absurd (hfield.mpr (by simp [fieldNames, hfields, hname])) hunknown

/-- A key is refused when no field has its name. -/
theorem set_primary_key_stops_at_iff {table reached : Table} {name : String}
    {reason : SchemaError} :
    (table.setPrimaryKey name).StopsAt reason reached ↔
      reached = table ∧ name ∉ table.fieldNames ∧ reason = .unknownField table.name name := by
  have hfield : table.hasField name = true ↔ name ∈ table.fieldNames := has_field_iff
  unfold setPrimaryKey
  split
  · rename_i hknown
    simp [hfield.mp hknown]
  · rename_i hunknown
    rw [hfield] at hunknown
    simp [hunknown, and_comm, eq_comm]

theorem set_primary_key_refused {table : Table} {name : String}
    (h : (table.setPrimaryKey name).failure ≠ none) : (table.setPrimaryKey name).value = table := by
  unfold setPrimaryKey at h ⊢
  split
  · simp_all [Progress.pure]
  · rfl

/-- Overwriting works on the field that was added last. -/
theorem amend_last_concat (table : Table) (fields : List Field) (field : Field)
    (change : Field → Field) :
    { table with fields := fields ++ [field] }.amendLast change =
      { table with fields := fields ++ [change field] } := by
  simp [amendLast]

end Table

namespace Schema

theorem has_table_iff {schema : Schema} {name : String} :
    schema.hasTable name = true ↔ name ∈ schema.tableNames := by
  simp [hasTable, table?, tableNames, List.find?_isSome]

theorem add_table_result_eq_ok_iff {schema grown : Schema} {name : String} :
    (schema.addTable name).result = .ok grown ↔
      name ≠ "" ∧ name ∉ schema.tableNames ∧
        grown = { schema with tables := schema.tables ++ [{ name }] } := by
  have htable : schema.hasTable name = true ↔ name ∈ schema.tableNames := has_table_iff
  unfold addTable
  split
  · rename_i hempty
    simp [String.isEmpty_iff.mp hempty]
  · rename_i hempty
    rw [String.isEmpty_iff] at hempty
    split
    · rename_i htaken
      simp [htable.mp htaken]
    · rename_i hfresh
      rw [htable] at hfresh
      simp [hempty, hfresh, eq_comm]

/-- A table is refused for its name: an empty one first, then one that is taken. -/
theorem add_table_stops_at_iff {schema reached : Schema} {name : String} {reason : SchemaError} :
    (schema.addTable name).StopsAt reason reached ↔
      reached = schema ∧
        (name = "" ∧ reason = .invalidName "table" "name is empty" ∨
          name ≠ "" ∧ name ∈ schema.tableNames ∧ reason = .duplicateTable name) := by
  have htable : schema.hasTable name = true ↔ name ∈ schema.tableNames := has_table_iff
  unfold addTable
  split
  · rename_i hempty
    simp [String.isEmpty_iff.mp hempty, and_comm, eq_comm]
  · rename_i hempty
    rw [String.isEmpty_iff] at hempty
    split
    · rename_i htaken
      simp [hempty, htable.mp htaken, and_comm, eq_comm]
    · rename_i hfresh
      rw [htable] at hfresh
      simp [hempty, hfresh]

theorem add_table_refused {schema : Schema} {name : String}
    (h : (schema.addTable name).failure ≠ none) : (schema.addTable name).value = schema := by
  unfold addTable at h ⊢
  split
  · rfl
  · split
    · rfl
    · simp_all [Progress.step]

/-- Work on the last table is seen in its place. -/
theorem on_last_table_concat (schema : Schema) (tables : List Table) (table : Table)
    (work : Table → Progress SchemaError Table) :
    { schema with tables := tables ++ [table] }.onLastTable work =
      (work table).map fun reached => { schema with tables := tables ++ [reached] } := by
  simp [onLastTable]

end Schema

end Schemata
