import Schemata.Proofs.ClassModel.Narrowing

/-!
# Where an extraction ends

`extract_exact` says how every extraction ends, whatever schema it starts from. It succeeds when the
classes that pass are `Drawable`, and otherwise stops at the first class or attribute whose name is
taken, `Stops`. Nothing is taken back: the tables of the classes before it are there in full, and
the table of a class that stops within its attributes holds the fields before the stop.
-/

namespace Schemata

namespace Attribute

/-- The attributes that pass. -/
def passing (filter : Option Visibility) (items : List Attribute) : List Attribute :=
  items.filter fun item => item.Passes filter

theorem drafts_eq_map_passing (filter : Option Visibility) (items : List Attribute) :
    drafts filter items = (passing filter items).map draft := rfl

theorem passing_of_forall {filter : Option Visibility} {items : List Attribute}
    (h : ∀ item ∈ items, item.Passes filter) : passing filter items = items := by
  simpa [passing] using h

theorem passes_of_mem_passing {filter : Option Visibility} {items : List Attribute}
    {item : Attribute} (h : item ∈ passing filter items) : item.Passes filter := by
  simpa using List.of_mem_filter h

/-- Names of attributes that pass are never empty, so they are proper when they are distinct. -/
theorem proper_drafts_iff {filter : Option Visibility} {items : List Attribute} :
    ProperNames ((drafts filter items).map (·.name)) ↔
      ((passing filter items).map (·.name)).Nodup := by
  have hnames : (drafts filter items).map (·.name) = (passing filter items).map (·.name) := by
    rw [drafts_eq_map_passing, List.map_map]
    rfl
  rw [hnames]
  refine ⟨(·.distinct), fun hnodup => ⟨fun hempty => ?_, hnodup⟩⟩
  obtain ⟨item, hitem, hname⟩ := List.mem_map.mp hempty
  exact (passes_of_mem_passing hitem).1 hname

variable {filter : Option Visibility} {className : String}

/-- An attribute is refused when it passes and its name is taken; a name that is empty does not
pass, and a field that was just added can always be registered. -/
theorem extract_stops_at_iff {table reached : Table} {item : Attribute} {reason : SchemaError} :
    (item.extract filter className table).StopsAt reason reached ↔
      item.Passes filter ∧ item.name ∈ table.fieldNames ∧
        reason = .duplicateField table.name item.name ∧ reached = table := by
  have hstays : (item.extract filter className table).StopsAt reason reached ↔
      (item.extract filter className table).result = .error reason ∧ reached = table := by
    rw [Progress.result_eq_error_iff]
    constructor
    · intro hstops
      refine ⟨⟨reached, hstops⟩, hstops.2.symm.trans (extract_refused ?_)⟩
      simp [hstops.1]
    · rintro ⟨⟨value, hstops⟩, rfl⟩
      refine ⟨hstops.1, extract_refused ?_⟩
      simp [hstops.1]
  rw [hstays, extract_result]
  by_cases hpasses : item.Passes filter
  · have hname : item.draft.name = item.name := rfl
    have hgrow : table.grow item.draft = .error reason ↔
        item.name ∈ table.fieldNames ∧ reason = .duplicateField table.name item.name := by
      simp [Table.grow, Progress.result_eq_error_iff, Table.add_field_stops_at_iff, hname,
        hpasses.1]
    rw [if_pos hpasses, Progress.map_eq_error_iff, hgrow, and_assoc]
    exact (and_iff_right hpasses).symm
  · simp [hpasses]

/-- A new table takes attributes that pass exactly when their names are distinct; the last key
attribute is registered. -/
theorem extract_all_eq_ok_iff {items : List Attribute} {reached : Table} :
    (Progress.through (extract filter className) { name := className } items).result =
        .ok reached ↔
      ((passing filter items).map (·.name)).Nodup ∧
        reached = { name := className
                    fields := drafts filter items
                    primaryKey := Table.lastFlagged? (drafts filter items) } := by
  rw [Progress.result_through, extract_all_result, Progress.map_eq_ok_iff, ← proper_drafts_iff]
  simp only [Table.grow_new_eq_ok_iff, Option.or_none]
  constructor
  · rintro ⟨grown, ⟨hnames, rfl⟩, rfl⟩
    exact ⟨hnames, rfl⟩
  · rintro ⟨hnames, rfl⟩
    exact ⟨_, ⟨hnames, rfl⟩, rfl⟩

end Attribute

namespace ModelClass

variable {filter : Option Visibility}

/-- Within a new table an extraction stops at the first attribute that passes under a name that was
taken before, and the fields before it stay. -/
theorem fill_stops_at_iff {node : ModelClass} {reached : Table} {reason : SchemaError} :
    (node.fill filter { name := node.name }).StopsAt reason reached ↔
      ∃ first item rest, Attribute.passing filter node.attributes = first ++ item :: rest ∧
        (first.map (·.name)).Nodup ∧ item.name ∈ first.map (·.name) ∧
        reason = .duplicateField node.name item.name ∧
        reached = { name := node.name
                    fields := first.map Attribute.draft
                    primaryKey := Table.lastFlagged? (first.map Attribute.draft) } := by
  have hpassed (table : Table) (item : Attribute) (h : decide (item.Passes filter) = false) :
      (item.extract filter node.name table).result = .ok table := by
    rw [Attribute.extract_result, if_neg (by simpa using h)]
  have hfirst {first rest : List Attribute} {item : Attribute}
      (hsplit : Attribute.passing filter node.attributes = first ++ item :: rest) :
      Attribute.passing filter first = first := by
    refine Attribute.passing_of_forall fun other hother => ?_
    have hmem : other ∈ Attribute.passing filter node.attributes :=
      hsplit ▸ List.mem_append_left _ hother
    exact Attribute.passes_of_mem_passing hmem
  have hnames (first : List Attribute) (key? : Option String) :
      Table.fieldNames
          { name := node.name, fields := first.map Attribute.draft, primaryKey := key? } =
        first.map (·.name) := by
    simp [Table.fieldNames, Attribute.draft, Function.comp_def]
  rw [fill, Progress.stops_at_emit_iff, Progress.stops_at_through_filter hpassed]
  show (Progress.through _ _ (Attribute.passing filter node.attributes)).StopsAt _ _ ↔ _
  rw [Progress.stops_at_through_iff]
  constructor
  · rintro ⟨first, item, rest, middle, hsplit, hmiddle, hstops⟩
    obtain ⟨hnodup, rfl⟩ := Attribute.extract_all_eq_ok_iff.mp hmiddle
    obtain ⟨-, htaken, hreason, rfl⟩ := Attribute.extract_stops_at_iff.mp hstops
    rw [Attribute.drafts_eq_map_passing, hfirst hsplit] at htaken ⊢
    rw [hnames] at htaken
    rw [hfirst hsplit] at hnodup
    exact ⟨first, item, rest, hsplit, hnodup, htaken, hreason, rfl⟩
  · rintro ⟨first, item, rest, hsplit, hnodup, htaken, rfl, rfl⟩
    have hitem : item ∈ Attribute.passing filter node.attributes := by simp [hsplit]
    have hpasses := Attribute.passes_of_mem_passing hitem
    refine ⟨first, item, rest, _, hsplit, Attribute.extract_all_eq_ok_iff.mpr ⟨?_, rfl⟩, ?_⟩
    · rwa [hfirst hsplit]
    · rw [Attribute.drafts_eq_map_passing, hfirst hsplit, Attribute.extract_stops_at_iff, hnames]
      exact ⟨hpasses, htaken, rfl, rfl⟩

theorem passes_of_mem_passing {nodes : List ModelClass} {node : ModelClass}
    (h : node ∈ passing filter nodes) : node.Passes filter :=
  (mem_passing.mp h).2

theorem passing_of_forall {nodes : List ModelClass} (h : ∀ node ∈ nodes, node.Passes filter) :
    passing filter nodes = nodes := by
  simpa [passing] using h

/-- Classes that can be drawn behind tables of some names: their own names are distinct and none of
those, and in each the names of the attributes that pass are distinct. -/
structure Drawable (filter : Option Visibility) (taken : List String) (nodes : List ModelClass) :
    Prop where
  distinct : (nodes.map (·.name)).Nodup
  fresh : ∀ node ∈ nodes, node.name ∉ taken
  attributes : ∀ node ∈ nodes, ((Attribute.passing filter node.attributes).map (·.name)).Nodup

/-- Where an extraction of classes stops, and the tables it has added until then. Every class before
the one it stops at can be drawn. -/
inductive Stops (filter : Option Visibility) (taken : List String) (nodes : List ModelClass) :
    SchemaError → List Table → Prop
  | duplicateTable {before after : List ModelClass} {node : ModelClass}
      (split : nodes = before ++ node :: after) (earlier : Drawable filter taken before)
      (again : node.name ∈ taken ∨ node.name ∈ before.map (·.name)) :
      Stops filter taken nodes (.duplicateTable node.name) (before.map (table filter))
  | duplicateField {before after : List ModelClass} {node : ModelClass}
      {first rest : List Attribute} {item : Attribute}
      (split : nodes = before ++ node :: after) (earlier : Drawable filter taken before)
      (fresh : node.name ∉ taken) (unlike : node.name ∉ before.map (·.name))
      (attributes : Attribute.passing filter node.attributes = first ++ item :: rest)
      (distinct : (first.map (·.name)).Nodup) (again : item.name ∈ first.map (·.name)) :
      Stops filter taken nodes (.duplicateField node.name item.name)
        (before.map (table filter) ++
          [{ name := node.name
             fields := first.map Attribute.draft
             primaryKey := Table.lastFlagged? (first.map Attribute.draft) }])

/-- Classes that pass have names, so they are proper when they are fresh and distinct. -/
theorem drawable_iff {taken : List String} {nodes : List ModelClass}
    (h : ∀ node ∈ nodes, node.Passes filter) :
    Drawable filter taken nodes ↔ ProperBehind taken (nodes.map (·.name)) ∧
      ∀ node ∈ nodes, ProperNames (node.table filter).fieldNames := by
  have hattributes (node : ModelClass) : ProperNames (node.table filter).fieldNames ↔
      ((Attribute.passing filter node.attributes).map (·.name)).Nodup :=
    Attribute.proper_drafts_iff
  simp only [hattributes]
  constructor
  · rintro ⟨hdistinct, hfresh, hnodup⟩
    refine ⟨⟨fun hempty => ?_, List.forall_mem_map.mpr hfresh, hdistinct⟩, hnodup⟩
    obtain ⟨node, hnode, hname⟩ := List.mem_map.mp hempty
    exact (h node hnode).1 hname
  · rintro ⟨⟨-, hfresh, hdistinct⟩, hnodup⟩
    exact ⟨hdistinct, fun node hnode => hfresh node.name (List.mem_map_of_mem hnode), hnodup⟩

/-- An extraction succeeds when the classes that pass can be drawn. -/
theorem extract_all_eq_ok_iff_drawable {nodes : List ModelClass} {schema reached : Schema} :
    (Progress.through (extract filter) schema nodes).result = .ok reached ↔
      Drawable filter schema.tableNames (passing filter nodes) ∧
        reached = { schema with
          tables := schema.tables ++ (passing filter nodes).map (table filter) } := by
  rw [extract_all_eq_ok_iff, drawable_iff fun node hnode => passes_of_mem_passing hnode, and_assoc]

theorem extract_all_failure_eq_none_iff {nodes : List ModelClass} {schema : Schema} :
    (Progress.through (extract filter) schema nodes).failure = none ↔
      Drawable filter schema.tableNames (passing filter nodes) := by
  constructor
  · intro hnone
    exact (extract_all_eq_ok_iff_drawable.mp (Progress.result_eq_value hnone)).1
  · intro hdrawable
    exact (Progress.result_eq_ok_iff.mp (extract_all_eq_ok_iff_drawable.mpr ⟨hdrawable, rfl⟩)).1

/-- What an extraction leaves behind that is not refused. -/
theorem extract_all_value {nodes : List ModelClass} {schema : Schema}
    (h : (Progress.through (extract filter) schema nodes).failure = none) :
    (Progress.through (extract filter) schema nodes).value =
      { schema with tables := schema.tables ++ (passing filter nodes).map (table filter) } :=
  (extract_all_eq_ok_iff_drawable.mp (Progress.result_eq_value h)).2

theorem extract_stops_at_iff {node : ModelClass} {schema reached : Schema} {reason : SchemaError}
    (h : node.Passes filter) :
    (node.extract filter schema).StopsAt reason reached ↔
      node.name ∈ schema.tableNames ∧ reason = .duplicateTable node.name ∧ reached = schema ∨
        node.name ∉ schema.tableNames ∧
          ∃ held, (node.fill filter { name := node.name }).StopsAt reason held ∧
            reached = { schema with tables := schema.tables ++ [held] } := by
  obtain ⟨hname, hadmitted⟩ := h
  have hrun : node.extract filter schema =
      (schema.addTable node.name).andThen (·.onLastTable (node.fill filter)) := by
    rw [extract, if_neg (by simpa using hname), if_pos hadmitted]
  rw [hrun, Schema.add_filled_stops_at_iff, Schema.add_table_stops_at_iff]
  simp [hname, and_comm, and_left_comm]

/-- An extraction of classes stops at the first one that passes and cannot be drawn behind those
before it. -/
theorem extract_all_stops_at_iff {nodes : List ModelClass} {schema reached : Schema}
    {reason : SchemaError} :
    (Progress.through (extract filter) schema nodes).StopsAt reason reached ↔
      ∃ drawn, Stops filter schema.tableNames (passing filter nodes) reason drawn ∧
        reached = { schema with tables := schema.tables ++ drawn } := by
  have hpassed (value : Schema) (node : ModelClass) (h : decide (node.Passes filter) = false) :
      (node.extract filter value).result = .ok value := by
    rw [extract_result, if_neg (by simpa using h)]
  have hbefore {before after : List ModelClass} {node : ModelClass}
      (hsplit : passing filter nodes = before ++ node :: after) :
      passing filter before = before ∧ node.Passes filter := by
    refine ⟨passing_of_forall fun other hother => ?_, ?_⟩
    · have hmem : other ∈ passing filter nodes := hsplit ▸ List.mem_append_left _ hother
      exact passes_of_mem_passing hmem
    · have hmem : node ∈ passing filter nodes := by simp [hsplit]
      exact passes_of_mem_passing hmem
  have hnames (before : List ModelClass) :
      Schema.tableNames { schema with tables := schema.tables ++ before.map (table filter) } =
        schema.tableNames ++ before.map (·.name) := by
    simp [Schema.tableNames, Function.comp_def]
  rw [Progress.stops_at_through_filter hpassed]
  show (Progress.through _ _ (passing filter nodes)).StopsAt _ _ ↔ _
  rw [Progress.stops_at_through_iff]
  constructor
  · rintro ⟨before, node, after, middle, hsplit, hmiddle, hstops⟩
    obtain ⟨hpassing, hpasses⟩ := hbefore hsplit
    obtain ⟨hdrawable, rfl⟩ := extract_all_eq_ok_iff_drawable.mp hmiddle
    rw [hpassing] at hdrawable hstops
    rcases (extract_stops_at_iff hpasses).mp hstops with
      ⟨htaken, rfl, rfl⟩ | ⟨hfresh, held, hfill, rfl⟩
    · rw [hnames, List.mem_append] at htaken
      exact ⟨_, .duplicateTable hsplit hdrawable htaken, rfl⟩
    · obtain ⟨first, item, rest, hattributes, hdistinct, hagain, rfl, rfl⟩ :=
        fill_stops_at_iff.mp hfill
      rw [hnames, List.mem_append, not_or] at hfresh
      refine ⟨_, .duplicateField hsplit hdrawable hfresh.1 hfresh.2 hattributes hdistinct hagain, ?_⟩
      rw [List.append_assoc]
  · have hreached {before after : List ModelClass} {node : ModelClass}
        (hsplit : passing filter nodes = before ++ node :: after)
        (hdrawable : Drawable filter schema.tableNames before) :
        (Progress.through (extract filter) schema before).result =
          .ok { schema with tables := schema.tables ++ before.map (table filter) } := by
      obtain ⟨hpassing, -⟩ := hbefore hsplit
      rw [extract_all_eq_ok_iff_drawable, hpassing]
      exact ⟨hdrawable, rfl⟩
    rintro ⟨drawn, hstops, rfl⟩
    cases hstops with
    | @duplicateTable before after node split earlier again =>
        refine ⟨before, node, after, _, split, hreached split earlier, ?_⟩
        rw [extract_stops_at_iff (hbefore split).2, hnames, List.mem_append]
        exact .inl ⟨again, rfl, rfl⟩
    | @duplicateField before after node first rest item split earlier fresh unlike attributes
        distinct again =>
        refine ⟨before, node, after, _, split, hreached split earlier, ?_⟩
        rw [extract_stops_at_iff (hbefore split).2, hnames, List.mem_append, not_or]
        refine .inr ⟨⟨fresh, unlike⟩, _, fill_stops_at_iff.mpr
          ⟨first, item, rest, attributes, distinct, again, rfl, rfl⟩, ?_⟩
        rw [List.append_assoc]

end ModelClass

namespace ClassModel

open ModelClass (passing Drawable Stops)

/-- How an extraction ends. It succeeds exactly when the classes that pass can be drawn behind the
tables that are there, and adds one table for each. It is refused exactly where the drawing of these
classes stops, and then leaves what was drawn until there. -/
theorem extract_exact (model : ClassModel) (filter : Option Visibility) (schema : Schema) :
    (∀ reached, (model.extract filter schema).result = .ok reached ↔
      Drawable filter schema.tableNames (passing filter model.classes) ∧
        reached = { schema with
          tables := schema.tables ++
            (passing filter model.classes).map (ModelClass.table filter) }) ∧
      ∀ reason reached, (model.extract filter schema).StopsAt reason reached ↔
        ∃ drawn, Stops filter schema.tableNames (passing filter model.classes) reason drawn ∧
          reached = { schema with tables := schema.tables ++ drawn } :=
  ⟨fun _ => ModelClass.extract_all_eq_ok_iff_drawable,
    fun _ _ => ModelClass.extract_all_stops_at_iff⟩

/-- The table of a class that names an attribute twice is left with the first one, its key. -/
example :
    let model : ClassModel :=
      { classes :=
          [{ name := "Order" },
           { name := "Item"
             attributes := [{ name := "id", stereotype := some "PK" }, { name := "id" }] }] }
    (model.extract none {}).StopsAt (.duplicateField "Item" "id")
      { tables :=
          [{ name := "Order" },
           { name := "Item"
             fields := [{ name := "id", dataType := "", isPrimaryKey := true }]
             primaryKey := some "id" }] } :=
  ⟨rfl, rfl⟩

end ClassModel

end Schemata
