import Schemata.Proofs.Schema.Operations

/-!
# Sessions on a schema

A session is a schema that a caller builds together with the copies of tables that the caller keeps.
`Call.Effect` says what a call that is not refused changes; every invariant below is read off it.
The main statement, `reachable_session`, follows a session through any list of calls, refused ones
included.

A table can be written to as long as it is the one added last. A field can be overwritten, its name
included, only directly after it was added.
-/

namespace Schemata

/-- A call on a table. -/
inductive TableCall where
  /-- Add a field and overwrite the one that was added. -/
  | addField (field : Field) (overwrite : Field → Field)
  | setPrimaryKey (name : String)

namespace TableCall

/-- Make a call on a table. -/
def apply (table : Table) : TableCall → Progress SchemaError Table
  | addField field overwrite =>
    (table.addField field).andThen fun added => .pure (added.amendLast overwrite)
  | setPrimaryKey name => table.setPrimaryKey name

/-- Whether an overwritten field is still called what it was added as. -/
def KeepsName : TableCall → Prop
  | addField field overwrite => (overwrite field).name = field.name
  | setPrimaryKey _ => True

/-- What a call changes in a table: a field under a fresh name comes to the end and is then
overwritten, or the first field of a name is flagged and registered. -/
inductive Effect : TableCall → Table → Table → Prop where
  | added {table : Table} {field : Field} (overwrite : Field → Field)
      (hname : field.name ≠ "") (hfresh : field.name ∉ table.fieldNames) :
      Effect (.addField field overwrite) table
        { table with fields := table.fields ++ [overwrite field] }
  | registered {table : Table} {before after : List Field} {field : Field}
      (hfields : table.fields = before ++ field :: after)
      (hbefore : ∀ other ∈ before, other.name ≠ field.name) :
      Effect (.setPrimaryKey field.name) table
        { table with
          fields := before ++ { field with isPrimaryKey := true } :: after
          primaryKey := some field.name }

theorem apply_effect {call : TableCall} {table : Table}
    (h : (call.apply table).failure = none) : call.Effect table (call.apply table).value := by
  have hresult := Progress.result_eq_ok_iff.mpr ⟨h, rfl⟩
  cases call with
  | addField field overwrite =>
      simp only [apply, Progress.result_andThen, Progress.result_pure] at hresult
      cases hadd : (table.addField field).result with
      | error reason => simp [hadd, bind, Except.bind] at hresult
      | ok added =>
          obtain ⟨hname, hfresh, rfl⟩ := Table.add_field_result_eq_ok_iff.mp hadd
          rw [hadd] at hresult
          injection hresult with hvalue
          rw [Table.amend_last_concat] at hvalue
          rw [apply, ← hvalue]
          exact .added overwrite hname hfresh
  | setPrimaryKey name =>
      obtain ⟨before, field, after, hfields, rfl, hbefore, hvalue⟩ :=
        Table.set_primary_key_result_eq_ok_iff.mp hresult
      rw [hvalue]
      exact .registered hfields hbefore

theorem apply_refused {call : TableCall} {table : Table}
    (h : (call.apply table).failure ≠ none) : (call.apply table).value = table := by
  cases call with
  | addField field overwrite =>
      cases hadd : (table.addField field).failure with
      | none => simp [apply, hadd, Progress.pure] at h
      | some reason =>
          rw [apply, Progress.andThen_of_failure hadd]
          exact Table.add_field_refused (by simp [hadd])
  | setPrimaryKey name => exact Table.set_primary_key_refused h

end TableCall

/-- A registered key names a field, and the first field of that name is flagged. -/
def Table.KeyFlagged (table : Table) : Prop :=
  ∀ key, table.primaryKey = some key →
    ∃ field, table.field? key = some field ∧ field.isPrimaryKey = true

namespace TableCall.Effect

variable {call : TableCall} {table reached : Table}

theorem name_eq (h : call.Effect table reached) : reached.name = table.name := by
  cases h <;> rfl

/-- Fields that come later never hide the first field of a name. -/
theorem key_flagged (h : call.Effect table reached) (hkey : table.KeyFlagged) :
    reached.KeyFlagged := by
  cases h with
  | added overwrite hname hfresh =>
      intro key hregistered
      obtain ⟨field, hfield, hflag⟩ := hkey key hregistered
      refine ⟨field, ?_, hflag⟩
      rw [Table.field?] at hfield ⊢
      rw [List.find?_append, hfield]
      rfl
  | registered hfields hbefore =>
      -- fields of that name may stand behind the flagged one, but none before it
      rename_i before after field
      intro key hregistered
      obtain rfl : field.name = key := Option.some.inj hregistered
      exact ⟨{ field with isPrimaryKey := true }, Table.field_eq_first rfl rfl hbefore, rfl⟩

theorem field_names_proper (h : call.Effect table reached) (hkeeps : call.KeepsName)
    (hnames : ProperNames table.fieldNames) : ProperNames reached.fieldNames := by
  cases h with
  | added overwrite hname hfresh =>
      have hlast := proper_names_concat_iff.mpr ⟨hnames, hname, hfresh⟩
      simpa [Table.fieldNames, show (overwrite _).name = _ from hkeeps] using hlast
  | registered hfields hbefore =>
      simpa [Table.fieldNames, hfields] using hnames

end TableCall.Effect

/-- A schema under construction and copies of its tables. -/
structure Session where
  schema : Schema
  copies : List Table := []

/-- A call of a session. -/
inductive Call where
  | addTable (name : String)
  /-- A call on the table added last. -/
  | onTable (call : TableCall)
  | setError (message : String)
  | rename (name : String)
  /-- Keep a copy of the table of a name. -/
  | copyTable (name : String)
  /-- Keep a copy of a copy. -/
  | copyAgain (position : Nat)
  /-- A call on a copy. -/
  | onCopy (position : Nat) (call : TableCall)

namespace Call

/-- Make a call. -/
def apply (session : Session) : Call → Progress SchemaError Session
  | addTable name => (session.schema.addTable name).map fun schema => { session with schema }
  | onTable call =>
    (session.schema.onLastTable fun table => call.apply table).map fun schema =>
      { session with schema }
  | setError message => .pure { session with schema := session.schema.setError message }
  | rename name => .pure { session with schema := { session.schema with name } }
  | copyTable name =>
    .pure { session with copies := session.copies ++ (session.schema.table? name).toList }
  | copyAgain position =>
    .pure { session with copies := session.copies ++ session.copies[position]?.toList }
  | onCopy position call =>
    match session.copies[position]? with
    | none => .pure session
    | some copy =>
      (call.apply copy).map fun reached =>
        { session with copies := session.copies.set position reached }

/-- Whether an overwritten field is still called what it was added as. -/
def KeepsName : Call → Prop
  | onTable call => call.KeepsName
  | onCopy _ call => call.KeepsName
  | _ => True

/-- What a call changes in a session. -/
inductive Effect : Call → Session → Session → Prop where
  | tableAdded {session : Session} {name : String}
      (hname : name ≠ "") (hfresh : name ∉ session.schema.tableNames) :
      Effect (.addTable name) session
        { session with
          schema := { session.schema with tables := session.schema.tables ++ [{ name }] } }
  | tableChanged {session : Session} {call : TableCall} {tables : List Table}
      {table reached : Table} (htables : session.schema.tables = tables ++ [table])
      (heffect : call.Effect table reached) :
      Effect (.onTable call) session
        { session with schema := { session.schema with tables := tables ++ [reached] } }
  | noTable {session : Session} {call : TableCall} (htables : session.schema.tables = []) :
      Effect (.onTable call) session session
  | errorSet (session : Session) (message : String) :
      Effect (.setError message) session
        { session with schema := { session.schema with error := message } }
  | renamed (session : Session) (name : String) :
      Effect (.rename name) session { session with schema := { session.schema with name } }
  | copied {session : Session} {name : String} {table : Table}
      (hmem : table ∈ session.schema.tables) (hname : table.name = name) :
      Effect (.copyTable name) session { session with copies := session.copies ++ [table] }
  | notCopied {session : Session} {name : String} (hname : name ∉ session.schema.tableNames) :
      Effect (.copyTable name) session session
  | copiedAgain {session : Session} {position : Nat} {copy : Table}
      (hcopy : session.copies[position]? = some copy) :
      Effect (.copyAgain position) session { session with copies := session.copies ++ [copy] }
  | copyChanged {session : Session} {position : Nat} {call : TableCall} {copy reached : Table}
      (hcopy : session.copies[position]? = some copy) (heffect : call.Effect copy reached) :
      Effect (.onCopy position call) session
        { session with copies := session.copies.set position reached }
  | notCopiedAgain {session : Session} {position : Nat}
      (hcopy : session.copies[position]? = none) : Effect (.copyAgain position) session session
  | noCopy {session : Session} {position : Nat} {call : TableCall}
      (hcopy : session.copies[position]? = none) :
      Effect (.onCopy position call) session session

/-- A call that is not refused has its effect. -/
theorem apply_effect {call : Call} {session : Session}
    (h : (call.apply session).failure = none) :
    call.Effect session (call.apply session).value := by
  cases call with
  | addTable name =>
      have hresult : (session.schema.addTable name).result = _ :=
        Progress.result_eq_ok_iff.mpr ⟨h, rfl⟩
      obtain ⟨hname, hfresh, hgrown⟩ := Schema.add_table_result_eq_ok_iff.mp hresult
      simp only [apply, Progress.map, hgrown]
      exact .tableAdded hname hfresh
  | onTable call =>
      rcases List.eq_nil_or_concat session.schema.tables with htables | ⟨tables, table, htables⟩
      · simp only [apply, Schema.onLastTable, htables, List.getLast?_nil, Progress.map,
          Progress.pure]
        exact .noTable htables
      · rw [List.concat_eq_append] at htables
        have hlast := Schema.on_last_table_concat session.schema tables table
          fun table => call.apply table
        rw [← htables] at hlast
        simp only [apply, hlast, Progress.map] at h ⊢
        exact .tableChanged htables (TableCall.apply_effect h)
  | setError message => exact .errorSet session message
  | rename name => exact .renamed session name
  | copyTable name =>
      cases htable : session.schema.table? name with
      | none =>
          have hname : name ∉ session.schema.tableNames := by
            rw [← Schema.has_table_iff, Schema.hasTable, htable]
            simp
          simpa [apply, htable, Progress.pure] using Effect.notCopied hname
      | some table =>
          have hname : table.name = name := by simpa using List.find?_some htable
          simpa [apply, htable, Progress.pure] using
            Effect.copied (List.mem_of_find?_eq_some htable) hname
  | copyAgain position =>
      cases hcopy : session.copies[position]? with
      | none => simpa [apply, hcopy, Progress.pure] using Effect.notCopiedAgain hcopy
      | some copy => simpa [apply, hcopy, Progress.pure] using Effect.copiedAgain hcopy
  | onCopy position call =>
      cases hcopy : session.copies[position]? with
      | none => simpa [apply, hcopy, Progress.pure] using Effect.noCopy hcopy
      | some copy =>
          simp only [apply, hcopy, Progress.map] at h ⊢
          exact .copyChanged hcopy (TableCall.apply_effect h)

/-- A call that is refused changes nothing. -/
theorem apply_refused {call : Call} {session : Session}
    (h : (call.apply session).failure ≠ none) : (call.apply session).value = session := by
  cases call with
  | addTable name =>
      have hvalue : (session.schema.addTable name).value = session.schema :=
        Schema.add_table_refused h
      simp [apply, Progress.map, hvalue]
  | onTable call =>
      rcases List.eq_nil_or_concat session.schema.tables with htables | ⟨tables, table, htables⟩
      · simp [apply, Schema.onLastTable, htables, Progress.map, Progress.pure] at h
      · rw [List.concat_eq_append] at htables
        have hlast := Schema.on_last_table_concat session.schema tables table
          fun table => call.apply table
        rw [← htables] at hlast
        simp only [apply, hlast, Progress.map] at h ⊢
        rw [TableCall.apply_refused h, ← htables]
  | setError message => exact absurd rfl h
  | rename name => exact absurd rfl h
  | copyTable name => exact absurd rfl h
  | copyAgain position => exact absurd rfl h
  | onCopy position call =>
      cases hcopy : session.copies[position]? with
      | none => simp [apply, hcopy, Progress.pure] at h
      | some copy =>
          simp only [apply, hcopy, Progress.map] at h ⊢
          obtain ⟨hposition, hget⟩ := List.getElem?_eq_some_iff.mp hcopy
          rw [TableCall.apply_refused h, ← hget, List.set_getElem_self]

end Call

/-- What holds of every schema that is built by calls. -/
structure Schema.Sound (schema : Schema) : Prop where
  names : ProperNames schema.tableNames
  keys : ∀ table ∈ schema.tables, table.KeyFlagged

/-- A list that was added to at the end, its first items related to those before. -/
inductive Extends {α : Type} (kept : α → α → Prop) : List α → List α → Prop where
  | added (items : List α) : Extends kept [] items
  | step {first reached : α} {rest others : List α} (hfirst : kept first reached)
      (hrest : Extends kept rest others) : Extends kept (first :: rest) (reached :: others)

namespace Extends

variable {α : Type} {kept : α → α → Prop}

theorem append (hkept : ∀ item, kept item item) (items more : List α) :
    Extends kept items (items ++ more) := by
  induction items with
  | nil => exact .added more
  | cons first rest ih => exact .step (hkept first) ih

theorem refl (hkept : ∀ item, kept item item) (items : List α) : Extends kept items items := by
  simpa using append hkept items []

theorem replace (hkept : ∀ item, kept item item) {old new : α} (h : kept old new)
    (before after : List α) : Extends kept (before ++ old :: after) (before ++ new :: after) := by
  induction before with
  | nil => exact .step h (refl hkept after)
  | cons first rest ih => exact .step (hkept first) ih

theorem trans (hkept : ∀ first second third, kept first second → kept second third →
      kept first third) {first second third : List α} (h : Extends kept first second)
    (hnext : Extends kept second third) : Extends kept first third := by
  induction h generalizing third with
  | added items => exact .added third
  | step hfirst hrest ih =>
      cases hnext with
      | step hsecond htail => exact .step (hkept _ _ _ hfirst hsecond) (ih htail)

end Extends

/-- A field that is as it was, but for its flag, which may have been turned on. -/
def Field.Kept (before after : Field) : Prop :=
  after = before ∨ after = { before with isPrimaryKey := true }

/-- A table whose fields are as they were, in order, with others after them. -/
def Table.Kept (before after : Table) : Prop :=
  after.name = before.name ∧ Extends Field.Kept before.fields after.fields

/-- A schema whose tables are as they were, in order, with others after them. -/
def Schema.Kept (before after : Schema) : Prop :=
  Extends Table.Kept before.tables after.tables

theorem Field.Kept.refl (field : Field) : field.Kept field := .inl rfl

theorem Field.Kept.trans (first second third : Field) (h : first.Kept second)
    (hnext : second.Kept third) : first.Kept third := by
  rcases h with rfl | rfl
  · exact hnext
  · rcases hnext with rfl | rfl
    · exact .inr rfl
    · exact .inr rfl

theorem Table.Kept.refl (table : Table) : table.Kept table :=
  ⟨rfl, .refl Field.Kept.refl table.fields⟩

theorem Table.Kept.trans (first second third : Table) (h : first.Kept second)
    (hnext : second.Kept third) : first.Kept third :=
  ⟨hnext.1.trans h.1, h.2.trans Field.Kept.trans hnext.2⟩

theorem TableCall.Effect.kept {call : TableCall} {table reached : Table}
    (h : call.Effect table reached) : table.Kept reached := by
  refine ⟨h.name_eq, ?_⟩
  cases h with
  | added overwrite hname hfresh => exact .append Field.Kept.refl table.fields _
  | registered hfields hbefore =>
      rename_i before after field
      rw [hfields]
      exact .replace Field.Kept.refl (.inr rfl) before after

namespace Session

/-- The start of a session: an empty schema of a name. -/
def start (name : String) : Session := { schema := { name } }

/-- The session after some calls, of which any may have been refused. -/
def after (session : Session) (calls : List Call) : Session :=
  calls.foldl (fun reached call => (call.apply reached).value) session

/-- What holds of every session. -/
structure Sound (session : Session) : Prop where
  schema : session.schema.Sound
  copies : ∀ copy ∈ session.copies, copy.KeyFlagged

/-- Whether the fields of every table and copy have proper names. -/
def FieldsProper (session : Session) : Prop :=
  ∀ table ∈ session.schema.tables ++ session.copies, ProperNames table.fieldNames

theorem sound_start (name : String) : (start name).Sound :=
  ⟨⟨ProperNames.nil, by simp [start]⟩, by simp [start]⟩

theorem fields_proper_start (name : String) : (start name).FieldsProper := by
  simp [FieldsProper, start]

end Session

namespace Call.Effect

variable {call : Call} {session reached : Session}

theorem sound (h : call.Effect session reached) (hsound : session.Sound) : reached.Sound := by
  obtain ⟨⟨hnames, hkeys⟩, hcopies⟩ := hsound
  cases h with
  | tableAdded hname hfresh =>
      refine ⟨⟨?_, fun table htable => ?_⟩, hcopies⟩
      · simpa [Schema.tableNames] using proper_names_concat_iff.mpr ⟨hnames, hname, hfresh⟩
      · rcases List.mem_append.mp htable with htable | htable
        · exact hkeys table htable
        · obtain rfl := List.mem_singleton.mp htable
          intro key hkey
          cases hkey
  | tableChanged htables heffect =>
      refine ⟨⟨?_, fun other hother => ?_⟩, hcopies⟩
      · simpa [Schema.tableNames, htables, heffect.name_eq] using hnames
      · rw [htables] at hkeys
        rcases List.mem_append.mp hother with hother | hother
        · exact hkeys other (List.mem_append_left _ hother)
        · obtain rfl := List.mem_singleton.mp hother
          exact heffect.key_flagged (hkeys _ (by simp))
  | copied hmem hname =>
      refine ⟨⟨hnames, hkeys⟩, fun copy hcopy => ?_⟩
      rcases List.mem_append.mp hcopy with hcopy | hcopy
      · exact hcopies copy hcopy
      · obtain rfl := List.mem_singleton.mp hcopy
        exact hkeys copy hmem
  | copiedAgain hcopy =>
      refine ⟨⟨hnames, hkeys⟩, fun copy hmem => ?_⟩
      rcases List.mem_append.mp hmem with hmem | hmem
      · exact hcopies copy hmem
      · obtain rfl := List.mem_singleton.mp hmem
        exact hcopies copy (List.mem_of_getElem? hcopy)
  | copyChanged hcopy heffect =>
      refine ⟨⟨hnames, hkeys⟩, fun other hother => ?_⟩
      rcases List.mem_or_eq_of_mem_set hother with hother | rfl
      · exact hcopies other hother
      · exact heffect.key_flagged (hcopies _ (List.mem_of_getElem? hcopy))
  | noTable | errorSet | renamed | notCopied | notCopiedAgain | noCopy =>
      exact ⟨⟨hnames, hkeys⟩, hcopies⟩

theorem fields_proper (h : call.Effect session reached) (hkeeps : call.KeepsName)
    (hproper : session.FieldsProper) : reached.FieldsProper := by
  intro other hother
  cases h with
  | tableAdded hname hfresh =>
      simp only [List.append_assoc, List.mem_append, List.mem_singleton] at hother
      rcases hother with hother | rfl | hother
      · exact hproper other (by simp [hother])
      · exact ProperNames.nil
      · exact hproper other (by simp [hother])
  | tableChanged htables heffect =>
      rw [Session.FieldsProper, htables] at hproper
      simp only [List.append_assoc, List.mem_append, List.mem_singleton] at hother
      rcases hother with hother | rfl | hother
      · exact hproper other (by simp [hother])
      · exact heffect.field_names_proper hkeeps (hproper _ (by simp))
      · exact hproper other (by simp [hother])
  | copied hmem hname =>
      simp only [List.mem_append, List.mem_singleton] at hother
      rcases hother with hother | hother | rfl
      · exact hproper other (by simp [hother])
      · exact hproper other (by simp [hother])
      · exact hproper other (by simp [hmem])
  | copiedAgain hcopy =>
      have hmem := List.mem_of_getElem? hcopy
      simp only [List.mem_append, List.mem_singleton] at hother
      rcases hother with hother | hother | rfl
      · exact hproper other (by simp [hother])
      · exact hproper other (by simp [hother])
      · exact hproper other (by simp [hmem])
  | copyChanged hcopy heffect =>
      rcases List.mem_append.mp hother with hother | hother
      · exact hproper other (by simp [hother])
      · rcases List.mem_or_eq_of_mem_set hother with hother | rfl
        · exact hproper other (by simp [hother])
        · have hmem := List.mem_of_getElem? hcopy
          exact heffect.field_names_proper hkeeps (hproper _ (by simp [hmem]))
  | noTable | errorSet | renamed | notCopied | notCopiedAgain | noCopy =>
      exact hproper other hother

theorem kept (h : call.Effect session reached) : session.schema.Kept reached.schema := by
  cases h with
  | tableAdded hname hfresh => exact .append Table.Kept.refl _ _
  | tableChanged htables heffect =>
      rw [Schema.Kept, htables]
      exact .replace Table.Kept.refl heffect.kept _ []
  | noTable | errorSet | renamed | copied | notCopied | copiedAgain | notCopiedAgain
  | copyChanged | noCopy =>
      exact .refl Table.Kept.refl _

end Call.Effect

namespace Session

/-- What every effect keeps holds after any list of calls, since a refused call has no effect. -/
theorem after_keeps {P : Session → Prop} {calls : List Call}
    (hstep : ∀ call ∈ calls, ∀ session reached, call.Effect session reached →
      P session → P reached) {session : Session} (h : P session) : P (session.after calls) := by
  induction calls generalizing session with
  | nil => exact h
  | cons call rest ih =>
      have hrest {middle : Session} : P middle → P (middle.after rest) :=
        ih fun other hother => hstep other (by simp [hother])
      rw [after, List.foldl_cons]
      -- a refused call is passed over: it leaves the session as it was
      by_cases hfailure : (call.apply session).failure = none
      · exact hrest (hstep call (by simp) session _ (Call.apply_effect hfailure) h)
      · rw [Call.apply_refused hfailure]
        exact hrest h

theorem sound_after {session : Session} (h : session.Sound) (calls : List Call) :
    (session.after calls).Sound :=
  after_keeps (fun _ _ _ _ heffect => heffect.sound) h

theorem fields_proper_after {session : Session} (h : session.FieldsProper) {calls : List Call}
    (hkeeps : ∀ call ∈ calls, call.KeepsName) : (session.after calls).FieldsProper :=
  after_keeps (fun call hcall _ _ heffect => heffect.fields_proper (hkeeps call hcall)) h

theorem kept_after (session : Session) (calls : List Call) :
    session.schema.Kept (session.after calls).schema :=
  after_keeps
    (fun _ _ _ _ heffect hkept => Extends.trans Table.Kept.trans hkept heffect.kept)
    (Extends.refl Table.Kept.refl _)

/-- In every session that calls lead to, tables have proper names and a registered key is the name
of a field whose first bearer is flagged; fields have proper names too unless one was renamed. From
there a call either has its effect or is refused and changes nothing, and whatever is called later
keeps what is there, in its order. -/
theorem reachable_session (name : String) (calls : List Call) :
    ((start name).after calls).Sound ∧
      ((∀ call ∈ calls, call.KeepsName) → ((start name).after calls).FieldsProper) ∧
      (∀ call : Call,
        let run := call.apply ((start name).after calls)
        (run.failure = none → call.Effect ((start name).after calls) run.value) ∧
          (run.failure ≠ none → run.value = (start name).after calls)) ∧
      ∀ later, ((start name).after calls).schema.Kept
        (((start name).after calls).after later).schema :=
  ⟨sound_after (sound_start name) calls,
    fields_proper_after (fields_proper_start name),
    fun _ => ⟨Call.apply_effect, Call.apply_refused⟩,
    kept_after _⟩

end Session

end Schemata
