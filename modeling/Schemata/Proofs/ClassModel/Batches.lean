import Schemata.Proofs.ClassModel.Drawing

/-!
# Classes in another order and in batches

An extraction checks each class against the tables that are there when its turn comes. Whether it
succeeds is a fact about the names alone, `Drawable`, which no order of the classes changes, and a
run over batches of classes is the run over all their classes. So the classes of a model may come in
another order and in any number of models, one extracted behind the other: `order_and_batches_exact`.
-/

namespace Schemata

namespace ModelClass

variable {filter : Option Visibility} {taken : List String} {nodes others : List ModelClass}

/-- Classes that can be drawn can be drawn in any order. -/
theorem Drawable.perm (h : nodes.Perm others) (hnodes : Drawable filter taken nodes) :
    Drawable filter taken others where
  distinct := (h.map (·.name)).nodup_iff.mp hnodes.distinct
  fresh node hnode := hnodes.fresh node (h.mem_iff.mpr hnode)
  attributes node hnode := hnodes.attributes node (h.mem_iff.mpr hnode)

theorem drawable_perm_iff (h : nodes.Perm others) :
    Drawable filter taken nodes ↔ Drawable filter taken others :=
  ⟨Drawable.perm h, Drawable.perm h.symm⟩

end ModelClass

namespace ClassModel

open ModelClass (passing)

/-- Extract the models one after the other, each behind what the ones before it have added. The
first refusal ends the run. -/
def extractEach (filter : Option Visibility) (schema : Schema) (batches : List ClassModel) :
    Progress SchemaError Schema :=
  Progress.through (fun reached batch => batch.extract filter reached) schema batches

/-- The classes of several models, in order. -/
def classesOf (batches : List ClassModel) : List ModelClass :=
  batches.flatMap (·.classes)

/-- One extraction for each batch is one extraction of all their classes, refused or not. -/
theorem extract_each_eq (filter : Option Visibility) (schema : Schema) (batches : List ClassModel) :
    extractEach filter schema batches =
      Progress.through (ModelClass.extract filter) schema (classesOf batches) :=
  Progress.through_batches (ModelClass.extract filter) ClassModel.classes schema batches

/-- The classes of a model are extracted in another order and in batches, over the same schema. Both
ways succeed, or none does. When they succeed, both leave the tables that were there in front and as
they were, and behind them the same tables, each in the order of its classes. Batches that keep the
order end as the extraction of the model does, also when it is refused: with the same refusal, the
same part of the schema and the same journal. -/
theorem order_and_batches_exact {model : ClassModel} {batches : List ClassModel}
    (h : (classesOf batches).Perm model.classes) (filter : Option Visibility) (start : Schema) :
    ((model.extract filter start).failure = none ↔
        (extractEach filter start batches).failure = none) ∧
      ((model.extract filter start).failure = none → ∃ drawn redrawn : List Table,
        drawn.Perm redrawn ∧
          drawn = (passing filter model.classes).map (ModelClass.table filter) ∧
          redrawn = (passing filter (classesOf batches)).map (ModelClass.table filter) ∧
          (model.extract filter start).value = { start with tables := start.tables ++ drawn } ∧
          (extractEach filter start batches).value =
            { start with tables := start.tables ++ redrawn }) ∧
      (classesOf batches = model.classes →
        extractEach filter start batches = model.extract filter start) := by
  have hpassing : (passing filter model.classes).Perm (passing filter (classesOf batches)) :=
    h.symm.filter _
  have hfailure : (model.extract filter start).failure = none ↔
      (extractEach filter start batches).failure = none := by
    rw [extract_each_eq, extract, ModelClass.extract_all_failure_eq_none_iff,
      ModelClass.extract_all_failure_eq_none_iff]
    exact ModelClass.drawable_perm_iff hpassing
  refine ⟨hfailure, fun hnone => ?_, fun heq => ?_⟩
  · have hnone' := hfailure.mp hnone
    rw [extract_each_eq] at hnone' ⊢
    exact ⟨_, _, hpassing.map _, rfl, rfl, ModelClass.extract_all_value hnone,
      ModelClass.extract_all_value hnone'⟩
  · rw [extract_each_eq, heq, extract]

/-- The item comes first and by itself, then the order and a class that is left out. -/
theorem order_and_batches_exact_of_orders :
    let order : ModelClass :=
      { name := "Order", attributes := [{ name := "id", stereotype := some "PK" }] }
    let audit : ModelClass := { name := "Audit", visibility := .protected }
    let item : ModelClass := { name := "Item" }
    let model : ClassModel := { name := "shop", classes := [order, audit, item] }
    let batches : List ClassModel := [{ classes := [item] }, { classes := [order, audit] }]
    let start : Schema := { tables := [{ name := "Stock" }] }
    (classesOf batches).Perm model.classes ∧
      (model.extract (some .public) start).failure = none ∧
      (extractEach (some .public) start batches).failure = none ∧
      (extractEach (some .public) start batches).value.tableNames = ["Stock", "Item", "Order"] := by
  intro order audit item model batches start
  have hperm : (classesOf batches).Perm model.classes := by
    show [item, order, audit].Perm [order, audit, item]
    exact @List.perm_append_comm _ [item] [order, audit]
  have hnone : (model.extract (some .public) start).failure = none := rfl
  obtain ⟨hfailure, hvalue, -⟩ := order_and_batches_exact hperm (some .public) start
  obtain ⟨drawn, redrawn, -, -, hredrawn, -, hreached⟩ := hvalue hnone
  refine ⟨hperm, hnone, hfailure.mp hnone, ?_⟩
  rw [hreached, hredrawn]
  rfl

end ClassModel

end Schemata
