import Schemata.ClassModel.Extraction
import Schemata.Proofs.Schema.Drafts

/-!
# Extraction as building a draft

A class model and a filter describe a draft: the tables and fields of the nodes that pass, no key
named. Extraction registers a key at once with every key attribute, building a draft once after all
fields; `extract_result` is one pass over the attributes that relates the two, and
`extraction_agrees` the agreement of whole runs, refusals included. What extraction leaves behind is
settled wherever it ends.
-/

namespace Schemata

namespace Attribute

/-- Whether a named attribute is admitted. -/
def Passes (filter : Option Visibility) (item : Attribute) : Prop :=
  item.name ≠ "" ∧ item.visibility.admittedBy filter = true

instance (filter : Option Visibility) (item : Attribute) : Decidable (item.Passes filter) :=
  inferInstanceAs (Decidable (_ ∧ _))

theorem taken_eq (filter : Option Visibility) (item : Attribute) :
    item.taken filter = decide (item.Passes filter) := by
  rw [Bool.eq_iff_iff, decide_eq_true_iff]
  simp [taken, Passes]

/-- The field that a draft has for an attribute. -/
def draft (item : Attribute) : Field where
  name := item.name
  dataType := item.dataType
  isPrimaryKey := decide (item.stereotype = some "PK")
  defaultValue := item.initialValue

/-- The fields that a draft has for attributes. -/
def drafts (filter : Option Visibility) (items : List Attribute) : List Field :=
  (items.filter fun item => item.Passes filter).map draft

theorem field_eq_draft (item : Attribute) : item.field = item.draft := by
  simp only [field, draft, isKey, keyStereotype, Field.mk.injEq, true_and, and_true]
  rw [Bool.eq_iff_iff]
  simp

/-- An attribute that passes adds its field and registers it when it is flagged; any other is left
out. -/
theorem extract_result (filter : Option Visibility) (className : String) (table : Table)
    (item : Attribute) :
    (item.extract filter className table).result =
      if item.Passes filter then
        (fun grown =>
          { grown with primaryKey :=
              if item.draft.isPrimaryKey then some item.name else table.primaryKey }) <$>
          table.grow item.draft
      else .ok table := by
  unfold extract
  rw [taken_eq, field_eq_draft]
  by_cases hpasses : item.Passes filter
  · have hkey : item.isKey = item.draft.isPrimaryKey := by
      rw [← field_eq_draft, field]
    simp only [hpasses, decide_true, if_true, Progress.result_andThen, Table.grow]
    cases hadd : (table.addField item.draft).result with
    | error reason => rfl
    | ok added =>
        obtain ⟨-, hfresh, rfl⟩ := Table.add_field_result_eq_ok_iff.mp hadd
        rw [hkey]
        cases hflag : item.draft.isPrimaryKey with
        | false => rfl
        | true =>
            have hfirst : Table.field? { table with fields := table.fields ++ [item.draft] }
                item.name = some item.draft := by
              refine Table.field_eq_first rfl rfl fun other hother hname => hfresh ?_
              exact List.mem_map.mpr ⟨other, hother, hname⟩
            exact Table.set_primary_key_flagged hfirst hflag
  · simp [hpasses]

/-- Registering key after key leaves the last one registered, as registering it at the end does. -/
theorem extract_all_result (filter : Option Visibility) (className : String)
    (items : List Attribute) (table : Table) :
    items.foldlM (fun reached item => (item.extract filter className reached).result) table =
      (fun grown =>
        { grown with
          primaryKey := (Table.lastFlagged? (drafts filter items)).or table.primaryKey }) <$>
        (drafts filter items).foldlM Table.grow table := by
  induction items generalizing table with
  | nil => rfl
  | cons item rest ih =>
      rw [List.foldlM_cons, extract_result]
      by_cases hpasses : item.Passes filter
      · rw [drafts, List.filter_cons_of_pos (by simpa using hpasses), List.map_cons, ← drafts,
          List.foldlM_cons, if_pos hpasses]
        cases table.grow item.draft with
        | error reason => rfl
        | ok grown =>
            -- a later key replaces this one, and without a later one this one stays
            have hkey :
                (Table.lastFlagged? (item.draft :: drafts filter rest)).or table.primaryKey =
                (Table.lastFlagged? (drafts filter rest)).or
                  (if item.draft.isPrimaryKey then some item.name else table.primaryKey) := by
              rw [Table.last_flagged_cons, Option.or_assoc]
              cases item.draft.isPrimaryKey <;> rfl
            refine (ih _).trans ?_
            rw [Table.grow_all_with_key, hkey]
            show _ = _ <$> (drafts filter rest).foldlM Table.grow grown
            cases (drafts filter rest).foldlM Table.grow grown <;> rfl
      · rw [drafts, List.filter_cons_of_neg (by simpa using hpasses), ← drafts, if_neg hpasses]
        exact ih table

/-- An attribute is refused before anything changes. -/
theorem extract_refused {filter : Option Visibility} {className : String} {table : Table}
    {item : Attribute} (h : (item.extract filter className table).failure ≠ none) :
    (item.extract filter className table).value = table := by
  have hresult := extract_result filter className table item
  unfold extract at h hresult ⊢
  split
  · cases hadd : (table.addField item.field).failure with
    | some reason =>
        rw [Progress.andThen_of_failure hadd]
        exact Table.add_field_refused (by simp [hadd])
    | none =>
        -- a field that was just added can be registered, so the second step is never refused
        rename_i htaken
        have hpasses : item.Passes filter := by simpa [taken_eq] using htaken
        have hgrow : table.grow item.draft = .ok (table.addField item.field).value := by
          rw [← field_eq_draft]
          exact Progress.result_eq_ok_iff.mpr ⟨hadd, rfl⟩
        rw [if_pos htaken, if_pos hpasses, hgrow] at hresult
        rw [if_pos htaken] at h
        exact absurd (Progress.result_eq_ok_iff.mp hresult).1 h
  · rfl

/-- Wherever the work on an attribute ends, the table is as it was or has the attribute's field,
registered when it is flagged. -/
theorem extract_value (filter : Option Visibility) (className : String) (table : Table)
    (item : Attribute) :
    (item.extract filter className table).value = table ∨
      item.draft.name ≠ "" ∧ item.draft.name ∉ table.fieldNames ∧
        (item.extract filter className table).value =
          { table with
            fields := table.fields ++ [item.draft]
            primaryKey := if item.draft.isPrimaryKey then some item.draft.name
              else table.primaryKey } := by
  by_cases hfailure : (item.extract filter className table).failure = none
  · have hresult := extract_result filter className table item
    rw [Progress.result_eq_ok_iff.mpr ⟨hfailure, rfl⟩] at hresult
    split at hresult
    · cases hgrow : table.grow item.draft with
      | error reason =>
          rw [hgrow] at hresult
          cases hresult
      | ok grown =>
          obtain ⟨hname, hfresh, rfl⟩ := Table.add_field_result_eq_ok_iff.mp hgrow
          rw [hgrow] at hresult
          injection hresult with hvalue
          exact .inr ⟨hname, hfresh, hvalue⟩
    · injection hresult with hvalue
      exact .inl hvalue
  · exact .inl (extract_refused hfailure)

theorem extract_name (filter : Option Visibility) (className : String) (table : Table)
    (item : Attribute) : (item.extract filter className table).value.name = table.name := by
  rcases extract_value filter className table item with h | ⟨-, -, h⟩
  · rw [h]
  · rw [h]

theorem extract_settled {filter : Option Visibility} {className : String} {table : Table}
    (item : Attribute) (h : table.Settled) :
    (item.extract filter className table).value.Settled := by
  rcases extract_value filter className table item with hvalue | ⟨hname, hfresh, hvalue⟩
  · rwa [hvalue]
  · rw [hvalue]
    exact h.concat hname hfresh

end Attribute

namespace ModelClass

/-- Whether a named class is admitted. -/
def Passes (filter : Option Visibility) (node : ModelClass) : Prop :=
  node.name ≠ "" ∧ node.visibility.admittedBy filter = true

instance (filter : Option Visibility) (node : ModelClass) : Decidable (node.Passes filter) :=
  inferInstanceAs (Decidable (_ ∧ _))

/-- The table that a draft has for a class. -/
def draft (filter : Option Visibility) (node : ModelClass) : TableDraft where
  name := node.name
  fields := Attribute.drafts filter node.attributes

theorem fill_result (filter : Option Visibility) (node : ModelClass) :
    (node.fill filter { name := node.name }).result =
      ((node.draft filter).fill { name := node.name }).result := by
  rw [fill, Progress.result_emit, Progress.result_through, Attribute.extract_all_result,
    TableDraft.fill_result, TableDraft.key_eq]
  show _ <$> (Attribute.drafts filter node.attributes).foldlM Table.grow { name := node.name } =
    (Attribute.drafts filter node.attributes).foldlM Table.grow { name := node.name } >>= _
  cases hgrow :
    (Attribute.drafts filter node.attributes).foldlM Table.grow { name := node.name } with
  | error reason => rfl
  | ok grown =>
      obtain ⟨hnames, rfl⟩ := Table.grow_new_eq_ok_iff.mp hgrow
      have hproper : ProperNames (Table.fieldNames
          { name := node.name, fields := Attribute.drafts filter node.attributes }) := hnames
      exact (Table.register_flagged fun key h => Table.field_last_flagged hproper h).symm

/-- A class that passes adds and fills its table; any other is left out. -/
theorem extract_result (filter : Option Visibility) (schema : Schema) (node : ModelClass) :
    (node.extract filter schema).result =
      if node.Passes filter then schema.grow (node.draft filter) else .ok schema := by
  have hgrow : ((schema.addTable node.name).andThen (·.onLastTable (node.fill filter))).result =
      schema.grow (node.draft filter) := by
    rw [Schema.grow, Draft.addTable, Schema.add_filled_result, Schema.add_filled_result,
      fill_result]
    rfl
  unfold extract
  by_cases hname : node.name = ""
  · simp [Passes, hname]
  · by_cases hadmitted : node.visibility.admittedBy filter = true
    · simp [Passes, hname, hadmitted, hgrow]
    · simp [Passes, hname, hadmitted]

theorem fill_settled (filter : Option Visibility) (node : ModelClass) :
    (node.fill filter { name := node.name }).value.name = node.name ∧
      (node.fill filter { name := node.name }).value.Settled := by
  rw [fill, Progress.value_emit]
  have hstep (table : Table) (item : Attribute) (h : table.name = node.name ∧ table.Settled) :
      (item.extract filter node.name table).value.name = node.name ∧
        (item.extract filter node.name table).value.Settled :=
    ⟨(Attribute.extract_name filter node.name table item).trans h.1,
      Attribute.extract_settled item h.2⟩
  exact Progress.through_keeps hstep ⟨rfl, Table.Settled.empty node.name⟩ node.attributes

theorem extract_settled {filter : Option Visibility} {schema : Schema} (node : ModelClass)
    (h : schema.Settled) : (node.extract filter schema).value.Settled := by
  unfold extract
  split
  · exact h
  · split
    · cases hadd : (schema.addTable node.name).failure with
      | some reason =>
          rw [Progress.andThen_of_failure hadd, Schema.add_table_refused (by simp [hadd])]
          exact h
      | none =>
          obtain ⟨hname, hfresh, hgrown⟩ :=
            Schema.add_table_result_eq_ok_iff.mp (Progress.result_eq_ok_iff.mpr ⟨hadd, rfl⟩)
          obtain ⟨hfilled, hsettled⟩ := fill_settled filter node
          rw [Progress.andThen_of_none hadd, hgrown, Schema.on_last_table_concat]
          rw [← hfilled] at hname hfresh
          exact h.concat hsettled hname hfresh
    · exact h

end ModelClass

namespace ClassModel

/-- The draft that a class model and a filter describe. -/
def draft (model : ClassModel) (filter : Option Visibility) (name : String) : Draft where
  name
  tables := (model.classes.filter fun node => node.Passes filter).map (ModelClass.draft filter)

/-- Extraction into an empty schema and building the draft of the same nodes end alike: in equal
schemas or with the same refusal. -/
theorem extraction_agrees (model : ClassModel) (filter : Option Visibility) (name : String) :
    (model.extract filter { name }).result = (model.draft filter name).build.result := by
  rw [extract, Draft.build, Progress.result_emit, Progress.result_through, Progress.result_through,
    draft, List.foldlM_map, List.foldlM_filter]
  congr 1
  funext schema node
  rw [ModelClass.extract_result]
  by_cases hpasses : node.Passes filter <;> simp [hpasses, Schema.grow, pure, Except.pure]

/-- A schema that extraction fills is settled wherever the extraction ends. -/
theorem extract_settled (model : ClassModel) (filter : Option Visibility) {schema : Schema}
    (h : schema.Settled) : (model.extract filter schema).value.Settled :=
  Progress.through_keeps (fun _ node hschema => node.extract_settled hschema) h model.classes

end ClassModel

end Schemata
