import Schemata.Proofs.Document.Json.Agreement
import Schemata.Proofs.Document.Json.Reading

/-!
# Records whose members are rearranged

`Rearranged` says in which ways the members of an object may be written that is decoded as a record:
in any order, under either name of a field, and with members among them that are no fields. What a
member does to the record is its `Effect`, the same for both writings; effects of different fields
commute. The main statement is `respects_record`: a record is decoded in the same way, or refused,
however its members are written.
-/

namespace Schemata.Json

open Decoding (Agree Fails fails_bind fails_fail)
open Decoder (stepTo)

variable {α β ρ : Type}

/-- Whether a field takes trees that are alike as one change of the record, or refuses both. -/
def FieldRespects (field : FieldForm Leaf Fault ρ)
    (alike : Tree Leaf .value → Tree Leaf .value → Prop) : Prop :=
  ∀ ⦃tree other⦄, alike tree other →
    (∃ change : ρ → ρ,
      (∀ record path, field.read record scope path tree = pure (change record)) ∧
        ∀ record path, field.read record scope path other = pure (change record)) ∨
    ((∀ record path, Fails (field.read record scope path tree)) ∧
      ∀ record path, Fails (field.read record scope path other))

/-- A field does what its decoder does. -/
theorem field_respects {name : String} {decode : Decoder Leaf Fault α} {store : ρ → α → ρ}
    {alike : Tree Leaf .value → Tree Leaf .value → Prop} {related : α → α → Prop}
    (h : Respects decode alike related)
    (hstore : ∀ record value other, related value other → store record value = store record other) :
    FieldRespects (.of name decode store) alike := by
  intro tree other htree
  cases h htree with
  | values hvalue hother hrelated =>
      rename_i value otherValue
      refine .inl ⟨(store · value), fun record path => ?_, fun record path => ?_⟩
      · show store record <$> decode scope path tree = _
        rw [hvalue, map_pure]
      · show store record <$> decode scope path other = _
        rw [hother, map_pure]
        exact congrArg pure (hstore record value otherValue hrelated).symm
  | issues hissue hother =>
      refine .inr ⟨fun record path => ?_, fun record path => ?_⟩
      · show Fails (store record <$> decode scope path tree)
        rw [map_eq_pure_bind]
        exact (hissue path).bind _
      · show Fails (store record <$> decode scope path other)
        rw [map_eq_pure_bind]
        exact (hother path).bind _

/-- Whether two fields change a record in either order. -/
def FieldsCommute (field other : FieldForm Leaf Fault ρ) : Prop :=
  ∀ ⦃tree otherTree : Tree Leaf .value⦄ ⦃path otherPath : Path⦄ ⦃change otherChange : ρ → ρ⦄,
    (∀ record, field.read record scope path tree = pure (change record)) →
      (∀ record, other.read record scope otherPath otherTree = pure (otherChange record)) →
        ∀ record, change (otherChange record) = otherChange (change record)

theorem FieldsCommute.symm {field other : FieldForm Leaf Fault ρ} (h : FieldsCommute field other) :
    FieldsCommute other field :=
  fun _ _ _ _ _ _ hchange hother record => (h hother hchange record).symm

instance : Std.Symm (@FieldsCommute ρ) where
  symm _ _ := FieldsCommute.symm

/-- What a field reads is stored, whatever record it is stored in. -/
theorem exists_stored {decode : Decoder Leaf Fault α} {store : ρ → α → ρ} {change : ρ → ρ}
    {tree : Tree Leaf .value} {path : Path}
    (h : ∀ record, store record <$> decode scope path tree = pure (change record)) (record : ρ) :
    ∃ value, ∀ other, change other = store other value := by
  -- what is decoded does not depend on the record, so one run tells it for all of them
  cases hrun : decode scope path tree 0 with
  | error issue =>
      have hfails := congrFun (h record) 0
      rw [map_eq_pure_bind] at hfails
      have hbind : Except.bind (decode scope path tree 0) _ = _ := hfails
      rw [hrun] at hbind
      cases hbind
  | ok reached =>
      refine ⟨reached.1, fun other => ?_⟩
      have hstored := congrFun (h other) 0
      rw [map_eq_pure_bind] at hstored
      have hbind : Except.bind (decode scope path tree 0) _ = _ := hstored
      rw [hrun] at hbind
      exact (congrArg Prod.fst (Except.ok.inj hbind)).symm

@[simp] theorem commute_of {name otherName : String} {decode : Decoder Leaf Fault α}
    {otherDecode : Decoder Leaf Fault β} {store : ρ → α → ρ} {otherStore : ρ → β → ρ}
    (h : ∀ record value otherValue,
      store (otherStore record otherValue) value = otherStore (store record value) otherValue) :
    FieldsCommute (.of name decode store) (.of otherName otherDecode otherStore) := by
  intro tree otherTree path otherPath change otherChange hchange hother record
  obtain ⟨value, hvalue⟩ := exists_stored hchange record
  obtain ⟨otherValue, hotherValue⟩ := exists_stored hother record
  simp only [hvalue, hotherValue, h]

/-- Ways to write the members of an object that is decoded as a record. The values of a field may be
written as `inner` says for its name; any value may be left out that is no field. -/
inductive Rearranged (form : RecordForm Leaf Fault ρ)
    (inner : String → Tree Leaf .value → Tree Leaf .value → Prop) :
    Tree Leaf .members → Tree Leaf .members → Prop where
  | nil : Rearranged form inner .noMembers .noMembers
  | field {key otherKey value otherValue : Tree Leaf .value} {rest others : Tree Leaf .members}
      {name otherName : String} {field : FieldForm Leaf Fault ρ} (hname : textOf? key = some name)
      (hotherName : textOf? otherKey = some otherName) (hfield : form.field? name = some field)
      (hotherField : form.field? otherName = some field) (hvalue : inner field.name value otherValue)
      (hrest : Rearranged form inner rest others) :
      Rearranged form inner (.member key value rest) (.member otherKey otherValue others)
  | unknown {key otherKey value otherValue : Tree Leaf .value} {rest others : Tree Leaf .members}
      (hkey : Alike key otherKey) (hvalue : Alike value otherValue)
      (hunknown : ∀ name, textOf? key = some name → form.field? name = none)
      (hrest : Rearranged form inner rest others) :
      Rearranged form inner (.member key value rest) (.member otherKey otherValue others)
  | insert {key value : Tree Leaf .value} {rest others : Tree Leaf .members} {name : String}
      {text : List Char} (hname : textOf? key = some name) (hunknown : form.field? name = none)
      (hvalue : Written value text) (hrest : Rearranged form inner rest others) :
      Rearranged form inner rest (.member key value others)
  | drop {key value : Tree Leaf .value} {rest others : Tree Leaf .members} {name : String}
      {text : List Char} (hname : textOf? key = some name) (hunknown : form.field? name = none)
      (hvalue : Written value text) (hrest : Rearranged form inner rest others) :
      Rearranged form inner (.member key value rest) others
  | swap (key value otherKey otherValue : Tree Leaf .value) (rest : Tree Leaf .members) :
      Rearranged form inner (.member key value (.member otherKey otherValue rest))
        (.member otherKey otherValue (.member key value rest))
  | trans {members others more : Tree Leaf .members} (h : Rearranged form inner members others)
      (hnext : Rearranged form inner others more) : Rearranged form inner members more

/-- Objects with rearranged members. A list in place of a record stays as it is, and a scalar may
only be written in another way. -/
inductive RecordAlike (form : RecordForm Leaf Fault ρ)
    (inner : String → Tree Leaf .value → Tree Leaf .value → Prop) :
    Tree Leaf .value → Tree Leaf .value → Prop where
  | object {members others : Tree Leaf .members} (h : Rearranged form inner members others) :
      RecordAlike form inner (.object members) (.object others)
  | list (items : Tree Leaf .items) : RecordAlike form inner (.list items) (.list items)
  | other {tree other : Tree Leaf .value} (h : Alike tree other)
      (hobject : ∀ members, tree ≠ .object members) (hlist : ∀ items, tree ≠ .list items) :
      RecordAlike form inner tree other

section

variable {form : RecordForm Leaf Fault ρ}
  {inner : String → Tree Leaf .value → Tree Leaf .value → Prop}

theorem field_or_unknown (form : RecordForm Leaf Fault ρ) (key : Tree Leaf .value) :
    (∃ name field, textOf? key = some name ∧ form.field? name = some field) ∨
      ∀ name, textOf? key = some name → form.field? name = none := by
  by_cases hknown : ∃ name field, textOf? key = some name ∧ form.field? name = some field
  · exact .inl hknown
  · refine .inr fun name hname => ?_
    cases hfield : form.field? name with
    | none => rfl
    | some field => exact absurd ⟨name, field, hname, hfield⟩ hknown

/-- A member may stay as it is. -/
theorem Rearranged.keep (h : ∀ name tree, inner name tree tree) (key value : Tree Leaf .value)
    {rest others : Tree Leaf .members} (hrest : Rearranged form inner rest others) :
    Rearranged form inner (.member key value rest) (.member key value others) := by
  obtain ⟨name, field, hname, hfield⟩ | hunknown := field_or_unknown form key
  · exact .field hname hname hfield hfield (h field.name value) hrest
  · exact .unknown (.refl key) (.refl value) hunknown hrest

theorem Rearranged.refl (h : ∀ name tree, inner name tree tree) :
    (members : Tree Leaf .members) → Rearranged form inner members members
  | .noMembers => .nil
  | .member key value rest => .keep h key value (Rearranged.refl h rest)

/-- Members may be written in any order. -/
theorem Rearranged.of_perm (h : ∀ name tree, inner name tree tree)
    {members others : List (Tree Leaf .value × Tree Leaf .value)} (hperm : members.Perm others) :
    Rearranged form inner (membersOf members) (membersOf others) := by
  induction hperm with
  | nil => exact .nil
  | cons member hperm ih => exact ih.keep h _ _
  | swap member other rest => exact .swap _ _ _ _ _
  | trans hperm hnext ih ihnext => exact ih.trans ihnext

theorem RecordAlike.refl (h : ∀ name tree, inner name tree tree) :
    (tree : Tree Leaf .value) → RecordAlike form inner tree tree
  | .object members => .object (.refl h members)
  | .list items => .list items
  | .leaf scalar => .other (.refl _) (by simp) (by simp)
  | .reference anchor => .other (.refl _) (by simp) (by simp)

end

/-- A form whose fields take what is alike in the same way, and in any order. -/
structure Orderly (form : RecordForm Leaf Fault ρ)
    (inner : String → Tree Leaf .value → Tree Leaf .value → Prop) : Prop where
  same : ∀ name tree, inner name tree tree
  respects : ∀ field ∈ form.fields, FieldRespects field (inner field.name)
  commute : form.fields.Pairwise FieldsCommute

/-- The fields that were read, and the record that holds them. -/
abbrev Gathered (ρ : Type) := List String × ρ

/-- What one member does to what was gathered. -/
def entry (form : RecordForm Leaf Fault ρ) (key value : Tree Leaf .value) (path : Path)
    (state : Gathered ρ) : Decoding Fault (Gathered ρ) := do
  let name ← Decoder.textAs "field identifier" scope path key
  match form.field? name with
  | none => do
    scope.skip (stepTo name key :: path) value
    pure state
  | some field =>
    if state.1.contains field.name then .fail path (.duplicateField field.name)
    else do
      let updated ← field.read state.2 scope (stepTo name key :: path) value
      pure (field.name :: state.1, updated)

theorem members_member (form : RecordForm Leaf Fault ρ) (path : Path) (state : Gathered ρ)
    (key value : Tree Leaf .value) (rest : Tree Leaf .members) :
    form.members scope path state.1 state.2 (.member key value rest) =
      entry form key value path state >>= fun next =>
        form.members scope path next.1 next.2 rest := by
  rw [RecordForm.members, entry, bind_assoc]
  refine bind_congr fun name => ?_
  cases form.field? name with
  | none => simp only [bind_assoc, pure_bind]
  | some field =>
      simp only
      split
      · rfl
      · simp only [bind_assoc, pure_bind]

/-- The same record, gathered from the same fields. -/
def Same (state other : Gathered ρ) : Prop :=
  state.2 = other.2 ∧ ∀ name, name ∈ state.1 ↔ name ∈ other.1

theorem Same.refl (state : Gathered ρ) : Same state state := ⟨rfl, fun _ => .rfl⟩

/-- Whether a step changes the record as one field, which may not have been read before. -/
structure Stores (name : String) (change : ρ → ρ)
    (step : Path → Gathered ρ → Decoding Fault (Gathered ρ)) : Prop where
  seen : ∀ path state, name ∈ state.1 → Fails (step path state)
  new : ∀ path state, name ∉ state.1 → step path state = pure (name :: state.1, change state.2)

/-- What two members do, both the same: they are refused, passed over, or stored as a field. -/
inductive Effect (form : RecordForm Leaf Fault ρ)
    (step other : Path → Gathered ρ → Decoding Fault (Gathered ρ)) : Prop where
  | refused (hstep : ∀ path state, Fails (step path state))
      (hother : ∀ path state, Fails (other path state))
  | passed (hstep : ∀ path state, step path state = pure state)
      (hother : ∀ path state, other path state = pure state)
  | stored {field : FieldForm Leaf Fault ρ} {change : ρ → ρ} {tree : Tree Leaf .value}
      (hfield : field ∈ form.fields)
      (hread : ∀ record path, field.read record scope path tree = pure (change record))
      (hstep : Stores field.name change step) (hother : Stores field.name change other)

namespace Stores

variable {name otherName : String} {change otherChange : ρ → ρ}
  {step other : Path → Gathered ρ → Decoding Fault (Gathered ρ)} {state : Gathered ρ}

/-- A field that was read is refused, also when another one is read first. -/
theorem fails_after (h : Stores name change step) (hother : Stores otherName otherChange other)
    (hmem : otherName = name ∨ otherName ∈ state.1) (path : Path) :
    Fails (step path state >>= other path) := by
  by_cases hstate : name ∈ state.1
  · exact (h.seen path _ hstate).bind _
  · rw [h.new path _ hstate, pure_bind]
    exact hother.seen path _ (List.mem_cons.2 hmem)

theorem new_after (h : Stores name change step) (hother : Stores otherName otherChange other)
    (hname : name ∉ state.1) (hotherName : otherName ∉ state.1) (hne : otherName ≠ name)
    (path : Path) :
    (step path state >>= other path) =
      pure (otherName :: name :: state.1, otherChange (change state.2)) := by
  have hnew : otherName ∉ name :: state.1 := by simp [hne, hotherName]
  rw [h.new path _ hname, pure_bind, hother.new path _ hnew]

end Stores

section

variable {form : RecordForm Leaf Fault ρ}
  {inner : String → Tree Leaf .value → Tree Leaf .value → Prop}
  {step other : Path → Gathered ρ → Decoding Fault (Gathered ρ)}

theorem Effect.agree (h : Effect form step other) {state otherState : Gathered ρ}
    (hsame : Same state otherState) :
    Agree Same (fun path => step path state) (fun path => other path otherState) := by
  cases h with
  | refused hstep hother => exact .issues (fun path => hstep path _) fun path => hother path _
  | passed hstep hother =>
      exact .values (fun path => hstep path _) (fun path => hother path _) hsame
  | stored hfield hread hstep hother =>
      rename_i field change tree
      by_cases hmem : field.name ∈ state.1
      · exact .issues (fun path => hstep.seen path _ hmem)
          fun path => hother.seen path _ ((hsame.2 _).1 hmem)
      · refine .values (fun path => hstep.new path _ hmem)
          (fun path => hother.new path _ fun hmemOther => hmem ((hsame.2 _).2 hmemOther))
          ⟨?_, fun name => ?_⟩
        · rw [hsame.1]
        · simp [hsame.2 name]

theorem fails_entry {key : Tree Leaf .value} (h : textOf? key = none) (value : Tree Leaf .value)
    (path : Path) (state : Gathered ρ) : Fails (entry form key value path state) :=
  (fails_text_as h "field identifier" path).bind _

/-- A member of a field is stored, in the same way under both names and however its value is
written. -/
theorem effect_field (hform : Orderly form inner) {key otherKey value otherValue : Tree Leaf .value}
    {name otherName : String} {field : FieldForm Leaf Fault ρ} (hname : textOf? key = some name)
    (hotherName : textOf? otherKey = some otherName) (hfield : form.field? name = some field)
    (hotherField : form.field? otherName = some field) (hvalue : inner field.name value otherValue) :
    Effect form (entry form key value) (entry form otherKey otherValue) := by
  have hmem : field ∈ form.fields := (RecordForm.field_eq_some hfield).1
  have hentry (path : Path) (state : Gathered ρ) : entry form key value path state =
      if state.1.contains field.name then .fail path (.duplicateField field.name)
      else field.read state.2 scope (stepTo name key :: path) value >>= fun updated =>
        pure (field.name :: state.1, updated) := by
    simp only [entry, text_as_eq hname, pure_bind, hfield]
  have hother (path : Path) (state : Gathered ρ) : entry form otherKey otherValue path state =
      if state.1.contains field.name then .fail path (.duplicateField field.name)
      else field.read state.2 scope (stepTo otherName otherKey :: path) otherValue >>= fun updated =>
        pure (field.name :: state.1, updated) := by
    simp only [entry, text_as_eq hotherName, pure_bind, hotherField]
  obtain ⟨change, hread, hotherRead⟩ | ⟨hread, hotherRead⟩ := hform.respects field hmem hvalue
  · refine .stored hmem hread ⟨fun path state hseen => ?_, fun path state hnew => ?_⟩
      ⟨fun path state hseen => ?_, fun path state hnew => ?_⟩
    · rw [hentry, if_pos (by simpa using hseen)]
      exact fails_fail _ _
    · rw [hentry, if_neg (by simpa using hnew), hread, pure_bind]
    · rw [hother, if_pos (by simpa using hseen)]
      exact fails_fail _ _
    · rw [hother, if_neg (by simpa using hnew), hotherRead, pure_bind]
  · refine .refused (fun path state => ?_) (fun path state => ?_)
    · rw [hentry]
      split
      · exact fails_fail _ _
      · exact (hread _ _).bind _
    · rw [hother]
      split
      · exact fails_fail _ _
      · exact (hotherRead _ _).bind _

theorem Alike.fault_eq {shape : Shape} {tree other : Tree Leaf shape} (h : Alike tree other) :
    tree.fault? dialect.fault? = other.fault? dialect.fault? := by
  induction h with
  | leaf h => cases h <;> rfl
  | reference | noItems | noMembers => rfl
  | list h ih => exact ih
  | object h ih => exact ih
  | item hhead hrest ihhead ihrest => rw [Tree.fault?, Tree.fault?, ihhead, ihrest]
  | member hkey hvalue hrest ihkey ihvalue ihrest =>
      rw [Tree.fault?, Tree.fault?, ihkey, ihvalue, ihrest]

theorem skip_sound {tree : Tree Leaf .value} (h : tree.fault? dialect.fault? = none) (path : Path) :
    scope.skip path tree = pure () := by
  have hfault : tree.fault? scope.dialect.fault? = none := h
  rw [Scope.skip, hfault]

theorem fails_skip {tree : Tree Leaf .value} {fault : Fault}
    (h : tree.fault? dialect.fault? = some fault) (path : Path) : Fails (scope.skip path tree) := by
  have hfault : tree.fault? scope.dialect.fault? = some fault := h
  rw [Scope.skip, hfault]
  exact fails_fail _ _

theorem entry_unknown {key value : Tree Leaf .value} {name : String}
    (hname : textOf? key = some name) (hunknown : form.field? name = none) (path : Path)
    (state : Gathered ρ) : entry form key value path state =
      scope.skip (stepTo name key :: path) value >>= fun _ => pure state := by
  simp only [entry, text_as_eq hname, pure_bind, hunknown]

/-- A member that is no field is passed over if it is not at fault. -/
theorem entry_passed {key value : Tree Leaf .value} {name : String}
    (hname : textOf? key = some name) (hunknown : form.field? name = none)
    (hvalue : value.fault? dialect.fault? = none) (path : Path) (state : Gathered ρ) :
    entry form key value path state = pure state := by
  rw [entry_unknown hname hunknown, skip_sound hvalue, pure_bind]

/-- A member that is no field does not come to anything else when it is written in another way. -/
theorem effect_unknown {key otherKey value otherValue : Tree Leaf .value} (hkey : Alike key otherKey)
    (hvalue : Alike value otherValue)
    (hunknown : ∀ name, textOf? key = some name → form.field? name = none) :
    Effect form (entry form key value) (entry form otherKey otherValue) := by
  have htext : textOf? otherKey = textOf? key := hkey.text_eq.symm
  cases hname : textOf? key with
  | none =>
      rw [hname] at htext
      exact .refused (fails_entry hname value) (fails_entry htext otherValue)
  | some name =>
      rw [hname] at htext
      have hfield : form.field? name = none := hunknown name hname
      have hother : otherValue.fault? dialect.fault? = value.fault? dialect.fault? :=
        hvalue.fault_eq.symm
      cases hfault : value.fault? dialect.fault? with
      | none =>
          rw [hfault] at hother
          exact .passed (entry_passed hname hfield hfault) (entry_passed htext hfield hother)
      | some fault =>
          rw [hfault] at hother
          refine .refused (fun path state => ?_) (fun path state => ?_)
          · rw [entry_unknown hname hfield]
            exact (fails_skip hfault _).bind _
          · rw [entry_unknown htext hfield]
            exact (fails_skip hother _).bind _

theorem effect_refl (hform : Orderly form inner) (key value : Tree Leaf .value) :
    Effect form (entry form key value) (entry form key value) := by
  obtain ⟨name, field, hname, hfield⟩ | hunknown := field_or_unknown form key
  · exact effect_field hform hname hname hfield hfield (hform.same _ value)
  · exact effect_unknown (.refl key) (.refl value) hunknown

/-- Two members can change places: those of one field are refused in either order, and those of
different fields change different parts of the record. -/
theorem Effect.swap (hform : Orderly form inner) (h : Effect form step step)
    (hother : Effect form other other) {state otherState : Gathered ρ}
    (hsame : Same state otherState) :
    Agree Same (fun path => step path state >>= other path)
      (fun path => other path otherState >>= step path) := by
  cases h with
  | refused hstep _ =>
      exact .issues (fun path => (hstep path _).bind _) fun path => fails_bind _ (hstep path)
  | passed hstep _ =>
      have hpure (path : Path) : step path = pure := funext (hstep path)
      simp only [hpure, pure_bind, bind_pure]
      exact hother.agree hsame
  | stored hfield hread hstep hagain =>
  rename_i field change tree
  cases hother with
  | refused hrefused _ =>
      exact .issues (fun path => fails_bind _ (hrefused path)) fun path => (hrefused path _).bind _
  | passed hpassed _ =>
      have hpure (path : Path) : other path = pure := funext (hpassed path)
      simp only [hpure, pure_bind, bind_pure]
      exact (Effect.stored hfield hread hstep hagain).agree hsame
  | stored hotherField hotherRead hother hotherAgain =>
  rename_i otherField otherChange otherTree
  -- one field twice is refused in either order, and so is a field that was read before
  by_cases hne : otherField.name = field.name
  · exact .issues (hstep.fails_after hother (.inl hne)) (hother.fails_after hstep (.inl hne.symm))
  by_cases hmem : field.name ∈ state.1
  · exact .issues (fun path => (hstep.seen path _ hmem).bind _)
      (hother.fails_after hstep (.inr ((hsame.2 _).1 hmem)))
  by_cases hotherMem : otherField.name ∈ state.1
  · exact .issues (hstep.fails_after hother (.inr hotherMem))
      fun path => (hother.seen path _ ((hsame.2 _).1 hotherMem)).bind _
  · have hcommute : FieldsCommute field otherField :=
      hform.commute.forall hfield hotherField fun heq => hne (congrArg FieldForm.name heq.symm)
    refine .values (hstep.new_after hother hmem hotherMem hne)
      (hother.new_after hstep (mt (hsame.2 _).2 hotherMem) (mt (hsame.2 _).2 hmem) (Ne.symm hne))
      ⟨?_, fun name => ?_⟩
    · rw [← hsame.1]
      exact (hcommute (fun record => hread record []) (fun record => hotherRead record []) _).symm
    · simp only [List.mem_cons, hsame.2 name]
      exact or_left_comm

theorem agree_finish (form : RecordForm Leaf Fault ρ) {state otherState : Gathered ρ}
    (hsame : Same state otherState) :
    Agree (· = ·) (fun path => form.finish path state.1 state.2)
      (fun path => form.finish path otherState.1 otherState.2) := by
  have hmissing : (form.fields.find? fun field => field.required && !state.1.contains field.name) =
      form.fields.find? fun field => field.required && !otherState.1.contains field.name := by
    congr
    funext field
    simp [hsame.2 field.name]
  unfold RecordForm.finish
  rw [hmissing, hsame.1]
  cases form.fields.find? fun field => field.required && !otherState.1.contains field.name with
  | none => exact .pure rfl
  | some field => exact .fail id id _ _

theorem agree_members_refl (hform : Orderly form inner) (members : Tree Leaf .members)
    {state otherState : Gathered ρ} (hsame : Same state otherState) :
    Agree (· = ·) (fun path => form.members scope path state.1 state.2 members)
      (fun path => form.members scope path otherState.1 otherState.2 members) := by
  match members with
  | .noMembers =>
      simp only [RecordForm.members]
      exact agree_finish form hsame
  | .member key value rest =>
      simp only [members_member]
      exact ((effect_refl hform key value).agree hsame).bind
        fun _ _ hnext => agree_members_refl hform rest hnext

/-- Rearranged members are gathered to the same record, or refused. -/
theorem agree_members (hform : Orderly form inner) {members others : Tree Leaf .members}
    (h : Rearranged form inner members others) {state otherState : Gathered ρ}
    (hsame : Same state otherState) :
    Agree (· = ·) (fun path => form.members scope path state.1 state.2 members)
      (fun path => form.members scope path otherState.1 otherState.2 others) := by
  induction h generalizing state otherState with
  | nil =>
      simp only [RecordForm.members]
      exact agree_finish form hsame
  | field hname hotherName hfield hotherField hvalue hrest ih =>
      simp only [members_member]
      exact ((effect_field hform hname hotherName hfield hotherField hvalue).agree hsame).bind
        fun _ _ hnext => ih hnext
  | unknown hkey hvalue hunknown hrest ih =>
      simp only [members_member]
      exact ((effect_unknown hkey hvalue hunknown).agree hsame).bind fun _ _ hnext => ih hnext
  | insert hname hunknown hvalue hrest ih =>
      simp only [members_member, entry_passed hname hunknown (fault_written hvalue), pure_bind]
      exact ih hsame
  | drop hname hunknown hvalue hrest ih =>
      simp only [members_member, entry_passed hname hunknown (fault_written hvalue), pure_bind]
      exact ih hsame
  | swap key value otherKey otherValue rest =>
      simp only [members_member, ← bind_assoc]
      exact ((effect_refl hform key value).swap hform (effect_refl hform otherKey otherValue)
        hsame).bind
          fun _ _ hnext => agree_members_refl hform rest hnext
  | trans h hnext ih ihnext =>
      exact (ih hsame).trans (ihnext (.refl _)) fun _ _ _ => Eq.trans

theorem agree_positions (hform : Orderly form inner) (surplus : Tree Leaf .value → Fault)
    {fields : List (FieldForm Leaf Fault ρ)} (hfields : ∀ field ∈ fields, field ∈ form.fields)
    (position : Nat) (record : ρ) (items : Tree Leaf .items) :
    Agree (· = ·) (fun path => form.positions scope path surplus fields position record items)
      (fun path => form.positions scope path surplus fields position record items) := by
  induction fields generalizing position record items with
  | nil =>
      cases items with
      | noItems =>
          simp only [RecordForm.positions]
          exact .pure rfl
      | item head rest =>
          simp only [RecordForm.positions]
          exact .fail id id _ _
  | cons field fields ih =>
      obtain ⟨hfield, hrest⟩ := List.forall_mem_cons.1 hfields
      cases items with
      | noItems =>
          simp only [RecordForm.positions]
          split
          · exact .fail id id _ _
          · exact ih hrest _ _ _
      | item head rest =>
          simp only [RecordForm.positions]
          obtain ⟨change, hread, -⟩ | ⟨hread, -⟩ :=
            hform.respects field hfield (hform.same field.name head)
          · simp only [hread, pure_bind]
            exact ih hrest _ _ _
          · exact .issues (fun path => (hread record _).bind _) fun path => (hread record _).bind _

/-- A record is decoded in the same way, or refused, however its object is written. -/
theorem respects_record (hform : Orderly form inner) :
    Respects form.decode (RecordAlike form inner) (· = ·) := by
  intro tree other htree
  cases htree with
  | object h =>
      simp only [RecordForm.decode, Scope.follow_object, pure_bind]
      exact agree_members hform h (Same.refl ([], form.start))
  | list items =>
      simp only [RecordForm.decode, Scope.follow_list, pure_bind]
      exact agree_positions hform surplus (fun _ h => h) 0 form.start items
  | other halike hobject hlist =>
      unfold RecordForm.decode
      exact agree_follow halike (fun _ _ _ => .fail id id _ _)
        (fun items _ htree => absurd htree (hlist items))
        (fun members _ htree => absurd htree (hobject members))

end

end Schemata.Json
