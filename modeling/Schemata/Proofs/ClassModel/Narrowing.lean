import Mathlib.Data.List.Nodup
import Schemata.Proofs.ClassModel.Extraction

/-!
# Narrowing the filter of an extraction

`ClassModel.extract_eq_ok_iff` says when an extraction succeeds and what it then leaves: one table
for each class that passes, one field for each of its attributes that passes. A tighter filter lets
fewer of both pass, in the same order, so whatever a wider filter draws is drawn in part,
`narrowing`. A filter for private nodes and no filter at all let the same nodes pass.
-/

namespace Schemata

namespace Visibility

/-- How much a filter lets pass: least when only public nodes pass, most without a filter. -/
def leniency : Option Visibility → Nat
  | some limit => limit.rank
  | none => 4

/-- A node that passes a filter passes every filter that is at least as lenient. -/
theorem admitted_by_mono {narrow wide : Option Visibility} (h : leniency narrow ≤ leniency wide)
    {node : Visibility} (hnode : node.admittedBy narrow = true) : node.admittedBy wide = true := by
  cases wide with
  | none => rfl
  | some limit =>
      cases narrow with
      | none =>
          -- nothing is as lenient as no filter
          cases limit <;> exact absurd h (by decide)
      | some tighter => exact admittedBy_some.mpr (Nat.le_trans (admittedBy_some.mp hnode) h)

/-- A filter for private nodes keeps nothing out. -/
theorem admitted_by_private (node : Visibility) :
    node.admittedBy (some «private») = node.admittedBy none := by
  cases node <;> rfl

end Visibility

open Visibility (leniency)

/-- Where names are proper, any part of them is. -/
theorem ProperNames.sublist {names others : List String} (h : ProperNames others)
    (hsub : names.Sublist others) : ProperNames names :=
  ⟨fun hempty => h.nonempty (hsub.subset hempty), h.distinct.sublist hsub⟩

namespace Table

/-- The last flagged field stays the last flagged one among some of the fields that it is among. -/
theorem last_flagged_sublist {fields others : List Field} (h : fields.Sublist others)
    (hnames : (others.map (·.name)).Nodup) {field : Field} (hmem : field ∈ fields)
    (hlast : lastFlagged? others = some field.name) : lastFlagged? fields = some field.name := by
  obtain ⟨last, hlast, hname⟩ := Option.map_eq_some_iff.mp hlast
  obtain ⟨before, hbefore⟩ := List.getLast?_eq_some_iff.mp hlast
  have hflagged : last ∈ others ∧ last.isPrimaryKey = true :=
    List.mem_filter.mp (List.mem_of_getLast? hlast)
  obtain rfl : last = field :=
    List.inj_on_of_nodup_map hnames hflagged.1 (h.subset hmem) hname
  -- the flagged fields end in `last`, and those before it are others
  have hnodup : (before ++ [last]).Nodup := hbefore ▸ (hnames.of_map).filter _
  have hsub : (fields.filter (·.isPrimaryKey)).Sublist (before ++ [last]) := hbefore ▸ h.filter _
  obtain ⟨first, rest, hsplit, hfirst, hrest⟩ := List.sublist_append_iff.mp hsub
  have hlastMem : last ∈ first ++ rest := hsplit ▸ List.mem_filter.mpr ⟨hmem, hflagged.2⟩
  have hfresh : last ∉ first := fun hfound =>
    (List.nodup_append.mp hnodup).2.2 last (hfirst.subset hfound) last (by simp) rfl
  have hrest : rest = [last] := by
    rcases List.sublist_singleton.mp hrest with rfl | rfl
    · exact absurd (by simpa using hlastMem) hfresh
    · rfl
  rw [lastFlagged?, hsplit, hrest, List.getLast?_concat]
  rfl

end Table

namespace Schema

/-- Where tables have proper names, each is found under its own. -/
theorem table_eq_of_mem {schema : Schema} {table : Table} {name : String}
    (h : ProperNames schema.tableNames) (hmem : table ∈ schema.tables) (hname : table.name = name) :
    schema.table? name = some table := by
  subst hname
  obtain ⟨before, after, htables⟩ := List.append_of_mem hmem
  have hbefore : before.find? (·.name == table.name) = none := by
    have hnodup := h.distinct
    rw [tableNames, htables, List.map_append, List.nodup_append] at hnodup
    rw [List.find?_eq_none]
    intro other hother hname
    exact hnodup.2.2 other.name (List.mem_map_of_mem hother) table.name (by simp)
      (by simpa using hname)
  rw [table?, htables, List.find?_append, hbefore]
  simp

end Schema

namespace Attribute

theorem Passes.mono {narrow wide : Option Visibility} (h : leniency narrow ≤ leniency wide)
    {item : Attribute} (hitem : item.Passes narrow) : item.Passes wide :=
  ⟨hitem.1, Visibility.admitted_by_mono h hitem.2⟩

/-- A tighter filter leaves out fields and keeps the others in their order. -/
theorem drafts_sublist {narrow wide : Option Visibility} (h : leniency narrow ≤ leniency wide)
    (items : List Attribute) : (drafts narrow items).Sublist (drafts wide items) := by
  refine List.Sublist.map _ (List.monotone_filter_right items fun item hitem => ?_)
  simpa using (Passes.mono h (by simpa using hitem) : item.Passes wide)

theorem draft_mem_drafts {filter : Option Visibility} {items : List Attribute} {item : Attribute}
    (hmem : item ∈ items) (hitem : item.Passes filter) : item.draft ∈ drafts filter items :=
  List.mem_map_of_mem (List.mem_filter.mpr ⟨hmem, by simpa using hitem⟩)

end Attribute

namespace ModelClass

theorem Passes.mono {narrow wide : Option Visibility} (h : leniency narrow ≤ leniency wide)
    {node : ModelClass} (hnode : node.Passes narrow) : node.Passes wide :=
  ⟨hnode.1, Visibility.admitted_by_mono h hnode.2⟩

/-- The table that a class is drawn as. -/
def table (filter : Option Visibility) (node : ModelClass) : Table where
  name := node.name
  fields := Attribute.drafts filter node.attributes
  primaryKey := Table.lastFlagged? (Attribute.drafts filter node.attributes)

@[simp] theorem table_name (filter : Option Visibility) (node : ModelClass) :
    (node.table filter).name = node.name := rfl

/-- The draft of a class fills a new table when its fields have proper names. -/
theorem fill_draft_eq_ok_iff {filter : Option Visibility} {node : ModelClass} {reached : Table} :
    ((node.draft filter).fill { name := node.name }).result = .ok reached ↔
      ProperNames (node.table filter).fieldNames ∧ reached = node.table filter :=
  @Table.fill_draft_eq_ok_iff
    { name := node.name, fields := Attribute.drafts filter node.attributes } reached
    fun _ hkey => nomatch hkey

/-- The attribute registered under a wider filter is registered under a tighter one that it
passes. -/
theorem table_key_eq {narrow wide : Option Visibility} (h : leniency narrow ≤ leniency wide)
    {node : ModelClass} (hproper : ProperNames (node.table wide).fieldNames) {item : Attribute}
    (hmem : item ∈ node.attributes) (hitem : item.Passes narrow)
    (hkey : (node.table wide).primaryKey = some item.name) :
    (node.table narrow).primaryKey = some item.name :=
  Table.last_flagged_sublist (Attribute.drafts_sublist h node.attributes) hproper.distinct
    (Attribute.draft_mem_drafts hmem hitem) hkey

/-- The classes that pass. -/
def passing (filter : Option Visibility) (nodes : List ModelClass) : List ModelClass :=
  nodes.filter fun node => node.Passes filter

theorem mem_passing {filter : Option Visibility} {nodes : List ModelClass} {node : ModelClass} :
    node ∈ passing filter nodes ↔ node ∈ nodes ∧ node.Passes filter := by
  simp [passing]

/-- A tighter filter leaves out classes and keeps the others in their order. -/
theorem passing_sublist {narrow wide : Option Visibility} (h : leniency narrow ≤ leniency wide)
    (nodes : List ModelClass) : (passing narrow nodes).Sublist (passing wide nodes) := by
  refine List.monotone_filter_right nodes fun node hnode => ?_
  simpa using (Passes.mono h (by simpa using hnode) : node.Passes wide)

/-- Classes can be drawn one after the other exactly when those that pass have proper names behind
the tables that are there, and their attributes that pass have. -/
theorem extract_all_eq_ok_iff {filter : Option Visibility} {nodes : List ModelClass}
    {schema reached : Schema} :
    (Progress.through (ModelClass.extract filter) schema nodes).result = .ok reached ↔
      ProperBehind schema.tableNames ((passing filter nodes).map (·.name)) ∧
        (∀ node ∈ passing filter nodes, ProperNames (node.table filter).fieldNames) ∧
        reached = { schema with
          tables := schema.tables ++ (passing filter nodes).map (table filter) } := by
  have hfold : (Progress.through (ModelClass.extract filter) schema nodes).result =
      ((passing filter nodes).map (draft filter)).foldlM Schema.grow schema := by
    rw [Progress.result_through, List.foldlM_map, passing, List.foldlM_filter]
    simp only [ModelClass.extract_result, decide_eq_true_eq]
    rfl
  have hfill : ∀ entry ∈ (passing filter nodes).map (draft filter), ∀ table,
      (entry.fill { name := entry.name }).result = .ok table ↔
        ProperNames (entry.fields.map (·.name)) ∧ table = entry.table.keyed := by
    intro entry hentry table
    obtain ⟨node, -, rfl⟩ := List.mem_map.mp hentry
    exact fill_draft_eq_ok_iff
  have hmade : ((passing filter nodes).map (draft filter)).map (·.table.keyed) =
      (passing filter nodes).map (table filter) := by
    rw [List.map_map]
    rfl
  rw [hfold, Schema.grow_drafts_eq_ok_iff (fun _ => rfl) hfill, hmade, List.map_map,
    List.forall_mem_map]
  rfl

end ModelClass

namespace ClassModel

open ModelClass (passing)

/-- An extraction succeeds exactly when the classes that pass have proper names, together with the
tables that are there, and the attributes of each that pass have. It leaves the tables of these
classes behind the others. -/
theorem extract_eq_ok_iff {model : ClassModel} {filter : Option Visibility}
    {schema reached : Schema} (h : ProperNames schema.tableNames) :
    (model.extract filter schema).result = .ok reached ↔
      ProperNames (schema.tableNames ++ (passing filter model.classes).map (·.name)) ∧
        (∀ node ∈ passing filter model.classes, ProperNames (node.table filter).fieldNames) ∧
        reached = { schema with
          tables := schema.tables ++ (passing filter model.classes).map (ModelClass.table filter) } := by
  rw [proper_names_append_iff, and_iff_right h]
  exact ModelClass.extract_all_eq_ok_iff

theorem extract_private_eq (model : ClassModel) (schema : Schema) :
    model.extract (some .private) schema = model.extract none schema := by
  have hattribute : Attribute.extract (some .private) = Attribute.extract none := by
    funext className table item
    unfold Attribute.extract Attribute.taken
    rw [Visibility.admitted_by_private]
  have hclass : ModelClass.extract (some .private) = ModelClass.extract none := by
    funext schema node
    unfold ModelClass.extract ModelClass.fill
    rw [Visibility.admitted_by_private, hattribute]
  rw [extract, extract, hclass]

/-- What a wider filter draws into an empty schema, a tighter one draws in part: some of the tables,
in each some of the fields as they are, and as its key the last of them that is flagged. That is the
key of the wider run whenever its attribute passes the tighter filter too. The filter for private
nodes gives the run without a filter. -/
theorem narrowing (model : ClassModel) :
    (∀ (narrow wide : Option Visibility) (start other large : Schema),
      leniency narrow ≤ leniency wide → start.tables = [] → other.tables = [] →
      (model.extract wide start).result = .ok large →
      ∃ small, (model.extract narrow other).result = .ok small ∧
        small.tableNames.Sublist large.tableNames ∧
        ∀ table ∈ small.tables, ∃ whole, large.table? table.name = some whole ∧
          table.fields.Sublist whole.fields ∧
          table.primaryKey = Table.lastFlagged? table.fields ∧
          ∀ node ∈ model.classes, node.Passes wide → node.name = table.name →
            ∀ item ∈ node.attributes, item.Passes wide → whole.primaryKey = some item.name →
              item.visibility.admittedBy narrow = true → table.primaryKey = whole.primaryKey) ∧
      ∀ start, model.extract (some .private) start = model.extract none start := by
  refine ⟨fun narrow wide start other large h hstart hother hlarge => ?_, model.extract_private_eq⟩
  have hempty {schema : Schema} (h : schema.tables = []) : schema.tableNames = [] := by
    simp [Schema.tableNames, h]
  have hproper {schema : Schema} (h : schema.tables = []) : ProperNames schema.tableNames :=
    hempty h ▸ ProperNames.nil
  obtain ⟨hnames, hfields, rfl⟩ := (extract_eq_ok_iff (hproper hstart)).mp hlarge
  rw [hempty hstart, List.nil_append] at hnames
  have hpassing := ModelClass.passing_sublist h model.classes
  refine ⟨_, (extract_eq_ok_iff (hproper hother)).mpr ⟨?_, fun node hnode => ?_, rfl⟩, ?_, ?_⟩
  · rw [hempty hother, List.nil_append]
    exact hnames.sublist (hpassing.map _)
  · exact (hfields node (hpassing.subset hnode)).sublist
      ((Attribute.drafts_sublist h node.attributes).map _)
  · simpa [Schema.tableNames, hstart, hother, Function.comp_def] using
      hpassing.map (·.name)
  · intro table htable
    rw [hother, List.nil_append] at htable
    obtain ⟨node, hnode, rfl⟩ := List.mem_map.mp htable
    have hwide := hpassing.subset hnode
    refine ⟨node.table wide, Schema.table_eq_of_mem ?_ ?_ rfl, Attribute.drafts_sublist h _, rfl, ?_⟩
    · simpa [Schema.tableNames, hstart, Function.comp_def] using hnames
    · rw [hstart, List.nil_append]
      exact List.mem_map_of_mem hwide
    · intro other hother hpasses hname item hitem hpassesItem hkey hadmitted
      -- classes that pass have different names, so this is the class that was drawn
      obtain rfl : other = node := List.inj_on_of_nodup_map hnames.distinct
        (ModelClass.mem_passing.mpr ⟨hother, hpasses⟩) hwide hname
      rw [hkey]
      exact ModelClass.table_key_eq h (hfields _ hwide) hitem ⟨hpassesItem.1, hadmitted⟩ hkey

/-- A private attribute and a protected class are left out, and the key stays. -/
theorem narrowing_of_orders :
    let model : ClassModel :=
      { classes :=
          [{ name := "Order"
             attributes :=
               [{ name := "id", stereotype := some "PK" },
                { name := "margin", visibility := .private }] },
           { name := "Audit", visibility := .protected }] }
    let large : Schema :=
      { tables :=
          [{ name := "Order"
             fields :=
               [{ name := "id", dataType := "", isPrimaryKey := true },
                { name := "margin", dataType := "" }]
             primaryKey := some "id" },
           { name := "Audit" }] }
    leniency (some .public) ≤ leniency none ∧ (model.extract none {}).result = .ok large ∧
      ∃ small, (model.extract (some .public) {}).result = .ok small ∧
        small.tableNames.Sublist large.tableNames ∧
        ∀ table ∈ small.tables, table.name = "Order" → table.primaryKey = some "id" := by
  intro model large
  have hlarge : (model.extract none {}).result = .ok large := rfl
  obtain ⟨small, hsmall, hnames, htables⟩ :=
    (narrowing model).1 (some .public) none {} {} large (by decide) rfl rfl hlarge
  refine ⟨by decide, hlarge, small, hsmall, hnames, fun table htable hname => ?_⟩
  obtain ⟨whole, hwhole, -, -, hkey⟩ := htables table htable
  rw [hname] at hwhole
  obtain rfl := Option.some.inj hwhole
  exact hkey _ List.mem_cons_self (by decide) hname.symm _ List.mem_cons_self (by decide) rfl rfl

end ClassModel

end Schemata
