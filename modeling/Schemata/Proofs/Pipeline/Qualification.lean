import Schemata.Proofs.Pipeline.Identifiers
import Schemata.Proofs.Pipeline.Redirection

/-!
# Full names and short ones

A full name is an identifier of two or more words. Every identifier stands for one, and a full name
for itself, so it does not matter which of the two is used: `interchangeable` says this of one
registry, and `after_qualified` of a run. What registries keep are full names only. The main
statement, `identifiers_exact`, puts these together with what the names of a registry are.
-/

namespace Schemata

namespace Identifier

/-- A row of words with a double colon. -/
structure Full (name : String) : Prop where
  row : Row name.toList
  joined : [':', ':'] <:+: name.toList

/-- A text is taken apart when there is a double colon in it. -/
theorem one_lt_length_words_iff {text : List Char} :
    1 < (words text).length ↔ [':', ':'] <:+: text := by
  induction text using words.induct with
  | case1 => simp [words]
  | case2 rest ih =>
      refine iff_of_true ?_ ⟨[], rest, rfl⟩
      simpa [words] using List.length_pos_of_ne_nil (words_ne_nil rest)
  | case3 c rest hcolons hnone ih => exact absurd hnone (words_ne_nil rest)
  | case4 c rest hcolons first others hrest ih =>
      have hprefix : ¬[':', ':'] <+: c :: rest := by
        rintro ⟨behind, hbehind⟩
        obtain ⟨hcolon, hsecond⟩ := List.cons_eq_cons.mp hbehind
        exact hcolons behind hcolon.symm hsecond.symm
      rw [hrest] at ih
      rw [words.eq_3 c rest hcolons, hrest, List.infix_cons_iff, or_iff_right hprefix]
      exact ih

theorem is_qualified_iff {text : String} :
    isQualified text = true ↔ [':', ':'] <:+: text.toList := by
  rw [isQualified, decide_eq_true_iff, one_lt_length_words_iff]

end Identifier

namespace Role

open Identifier

variable {role : Role} {text name : String}

/-- What stands before the short names of a role adds two words. -/
theorem words_space_append (role : Role) (text : String) :
    words (role.space ++ text).toList =
      "sqlt".toList :: role.name.toList :: words text.toList := by
  have hspace : (role.space ++ text).toList =
      "sqlt".toList ++ ':' :: ':' :: (role.name.toList ++ ':' :: ':' :: text.toList) := by
    rw [String.toList_append]
    cases role <;> rfl
  rw [hspace, words_append (by decide), words_append (by cases role <;> decide)]

@[simp] theorem is_qualified_qualify (role : Role) (text : String) :
    isQualified (role.qualify text) = true := by
  unfold qualify
  split
  · assumption
  · rw [isQualified, words_space_append]
    simp

@[simp] theorem is_well_formed_qualify (role : Role) (text : String) :
    isWellFormed (role.qualify text) = isWellFormed text := by
  unfold qualify
  split
  · rfl
  · have hsqlt : isWord "sqlt".toList = true := by decide
    have hrole : isWord role.name.toList = true := by cases role <;> decide
    simp only [isWellFormed, words_space_append, List.all_cons, hsqlt, hrole, Bool.true_and]

/-- A text with a double colon stands for itself. -/
theorem qualify_of_is_qualified (h : isQualified text = true) : role.qualify text = text :=
  if_pos h

theorem qualify_eq_or (role : Role) (text : String) :
    role.qualify text = text ∨
      ¬[':', ':'] <:+: text.toList ∧ role.qualify text = role.space ++ text := by
  rw [← is_qualified_iff]
  by_cases h : isQualified text = true
  · exact .inl (qualify_of_is_qualified h)
  · exact .inr ⟨h, if_neg h⟩

theorem full_name_eq_some_iff :
    role.fullName? text = some name ↔ Row text.toList ∧ role.qualify text = name := by
  simp [fullName?, is_well_formed_iff]

theorem full_name_is_some_iff : (role.fullName? text).isSome = true ↔ Row text.toList := by
  simp [fullName?, is_well_formed_iff]

/-- A text and its full form stand for the same name, or neither stands for any. -/
@[simp] theorem full_name_qualify (role : Role) (text : String) :
    role.fullName? (role.qualify text) = role.fullName? text := by
  rw [fullName?, fullName?, is_well_formed_qualify,
    qualify_of_is_qualified (is_qualified_qualify role text)]

theorem full_of_full_name (h : role.fullName? text = some name) : Full name := by
  obtain ⟨hrow, rfl⟩ := full_name_eq_some_iff.mp h
  refine ⟨?_, is_qualified_iff.mp (is_qualified_qualify role text)⟩
  rwa [← is_well_formed_iff, is_well_formed_qualify, is_well_formed_iff]

/-- A full name stands for itself in either role. -/
theorem full_name_of_full (h : Full name) (role : Role) : role.fullName? name = some name :=
  full_name_eq_some_iff.mpr
    ⟨h.row, qualify_of_is_qualified (is_qualified_iff.mpr h.joined)⟩

end Role

namespace Operation

/-- The operation with every identifier in its full form. -/
def qualified : Operation → Operation
  | register role name plugin => register role (role.qualify name) plugin
  | registerAlias role name target => registerAlias role (role.qualify name) (role.qualify target)
  | resolve role (.named identifier) => resolve role (.named (role.qualify identifier))
  | resolve role (.direct plugin) => resolve role (.direct plugin)
  | adopt role plugin => adopt role plugin

namespace Effect

variable {operation : Operation} {registry reached : Registry} {role : Role}

/-- The names with factories are those from before, and the one that is registered. -/
theorem mem_names_iff (h : operation.Effect registry reached) {name : String} :
    name ∈ reached.names role ↔
      name ∈ registry.names role ∨ operation.registers? = some (role, name) := by
  simp only [Registry.names, Keyed.mem_keys_iff]
  by_cases hregisters : operation.registers? = some (role, name)
  · obtain ⟨short, plugin, -, -, rfl⟩ := h.eq_put hregisters
    simp [Keyed.get?_set, hregisters]
  · rw [h.factory_kept hregisters]
    simp [hregisters]

/-- An alias was there before, or is made for two identifiers that stand for its names. -/
theorem mem_aliases (h : operation.Effect registry reached) {entry : String × String}
    (hentry : entry ∈ reached.aliases role) :
    entry ∈ registry.aliases role ∨
      ∃ name target, operation = .registerAlias role name target ∧
        role.fullName? name = some entry.1 ∧ role.fullName? target = some entry.2 := by
  by_cases hrole : role = operation.role
  · subst hrole
    cases h with
    | registered | made | unchanged =>
        exact .inl (by simpa [Registry.aliases, Operation.role] using hentry)
    | @aliased _ _ name target _ _ hname htarget =>
        rw [Registry.aliases, Operation.role, Registry.shelf_with_alias] at hentry
        rcases Keyed.mem_insertEntry hentry with rfl | hbefore
        · exact .inr ⟨name, target, rfl, hname, htarget⟩
        · exact .inl hbefore
    | adopted registry role plugin =>
        rw [Registry.aliases, Registry.shelf_counted] at hentry
        exact .inl hentry
  · rw [Registry.aliases, h.shelf_other hrole] at hentry
    exact .inl hentry

end Effect

theorem registers_eq_some_iff {operation : Operation} {role : Role} {name : String} :
    operation.registers? = some (role, name) ↔
      ∃ short plugin, operation = .register role short plugin ∧
        role.fullName? short = some name := by
  constructor
  · intro h
    obtain ⟨short, plugin, hoperation, hname, -⟩ := (operation.apply_effect .empty).eq_put h
    exact ⟨short, plugin, hoperation, hname⟩
  · rintro ⟨short, plugin, rfl, hname⟩
    simp [registers?, hname]

end Operation

/-- An event without the identifier that it tells of. -/
def Event.unnamed (event : Event) : Event :=
  { event with fields := event.fields.filter fun field => field.1 != "identifier" }

namespace Registry

open Identifier

/-- The names of a registry are those that were registered. -/
theorem mem_names_after {operations : List Operation} {role : Role} {name : String} :
    name ∈ (empty.after operations).names role ↔
      ∃ operation ∈ operations, operation.registers? = some (role, name) := by
  induction operations using List.reverseRecOn with
  | nil => cases role <;> exact iff_of_false (fun h => nomatch h) (by simp)
  | append_singleton before operation ih =>
      rw [after_append]
      refine ((operation.apply_effect (empty.after before)).mem_names_iff).trans ?_
      simp [ih, or_and_right, exists_or]

theorem full_aliases_after (operations : List Operation) (role : Role) :
    ∀ entry ∈ (empty.after operations).aliases role, Full entry.1 ∧ Full entry.2 := by
  refine after_keeps (P := fun registry => ∀ entry ∈ registry.aliases role,
    Full entry.1 ∧ Full entry.2) (fun operation _ registry reached heffect h entry hentry => ?_) ?_
  · rcases heffect.mem_aliases hentry with hbefore | ⟨name, target, -, hname, htarget⟩
    · exact h entry hbefore
    · exact ⟨Role.full_of_full_name hname, Role.full_of_full_name htarget⟩
  · cases role <;> simp [aliases, Keyed.empty, empty, shelf]

/-- It makes no difference to a registry which of two identifiers is used. Only what an answer tells
of the identifier is different: the error when it is refused, and the entry in the journal when it is
not. -/
structure Interchangeable (registry : Registry) (role : Role) (first second : String) : Prop where
  register : ∀ plugin,
    registry.register role second plugin = registry.register role first plugin
  name : ∀ target,
    registry.registerAlias role second target = registry.registerAlias role first target
  target : ∀ name,
    registry.registerAlias role name second = registry.registerAlias role name first
  contains : registry.contains role second = registry.contains role first
  asked : registry.containsJournal role second = registry.containsJournal role first
  left : (registry.resolve role (.named second)).registry =
    (registry.resolve role (.named first)).registry
  result : SameAnswer role first second (registry.resolve role (.named first)).result
    (registry.resolve role (.named second)).result
  journal : (registry.resolve role (.named second)).journal.map Event.unnamed =
    (registry.resolve role (.named first)).journal.map Event.unnamed

section Spellings

variable {role : Role} {first second : String}

/-- What an identifier leads to depends on its full name only. -/
theorem canonical_spelled (registry : Registry)
    (h : role.fullName? second = role.fullName? first) :
    registry.canonical role second = registry.canonical role first := by
  unfold canonical
  rw [h]

theorem resolve_spelled (registry : Registry) (h : role.fullName? second = role.fullName? first) :
    (registry.resolve role (.named second)).registry =
        (registry.resolve role (.named first)).registry ∧
      (registry.resolve role (.named second)).journal.map Event.unnamed =
        (registry.resolve role (.named first)).journal.map Event.unnamed := by
  have hsecond := registry.canonical_spelled h
  rcases hfirst : registry.canonical role first with ⟨journal, reason | name⟩ <;>
    rw [hfirst] at hsecond
  · simp [resolve, resolveName, hfirst, hsecond]
  · rcases hload : registry.load role name with ⟨after, loading, reason | made⟩ <;>
      simp [resolve, resolveName, hfirst, hsecond, hload, Event.unnamed]

/-- Identifiers that stand for one full name are interchangeable. -/
theorem interchangeable (registry : Registry) (hfirst : isWellFormed first = true)
    (hsecond : isWellFormed second = true) (h : role.fullName? second = role.fullName? first) :
    registry.Interchangeable role first second := by
  have hfull {text : String} (htext : isWellFormed text = true) :
      role.fullName? text = some (role.qualify text) := by
    simp [Role.fullName?, htext]
  have hname : role.qualify second = role.qualify first := by
    simpa [hfull hfirst, hfull hsecond] using h
  have hcanonical := registry.canonical_spelled h
  constructor
  case register => exact fun plugin => by simp [Registry.register, hfull, hfirst, hsecond, hname]
  case name =>
    intro target
    cases htarget : role.fullName? target <;>
      simp only [registerAlias, hfull hfirst, hfull hsecond, hname, htarget]
  case target =>
    intro name
    cases hother : role.fullName? name <;>
      simp only [registerAlias, hfull hfirst, hfull hsecond, hname, hother]
  case contains => rw [Registry.contains, Registry.contains, hcanonical]
  case asked => rw [containsJournal, containsJournal, hcanonical]
  case left => exact (registry.resolve_spelled h).1
  case result => exact same_answer hfirst (by rw [hcanonical])
  case journal => exact (registry.resolve_spelled h).2

end Spellings

/-- Nothing is registered under a text that is no identifier. -/
theorem register_malformed {role : Role} {text : String} (registry : Registry)
    (plugin : Plugin role) (h : ¬Row text.toList) :
    registry.register role text plugin =
      .fail registry (.configuration role text "malformed plugin identifier") := by
  have hnone : role.fullName? text = none := by
    rwa [← Role.full_name_is_some_iff, Option.not_isSome_iff_eq_none] at h
  rw [register, hnone]
  rfl

/-- An operation has the same effect with its identifiers in full, also when it is refused. -/
theorem apply_qualified (operation : Operation) (registry : Registry) :
    (operation.qualified.apply registry).value = (operation.apply registry).value := by
  cases operation with
  | register role name plugin =>
      simp only [Operation.qualified, Operation.apply, register, Role.full_name_qualify]
      cases role.fullName? name <;> rfl
  | registerAlias role name target =>
      simp only [Operation.qualified, Operation.apply, registerAlias, Role.full_name_qualify]
      cases role.fullName? name <;> cases role.fullName? target <;> rfl
  | resolve role reference =>
      cases reference with
      | named identifier =>
          exact (registry.resolve_spelled (role.full_name_qualify identifier)).1
      | direct plugin => rfl
  | adopt role plugin => rfl

theorem after_qualified (registry : Registry) (operations : List Operation) :
    registry.after (operations.map Operation.qualified) = registry.after operations := by
  induction operations generalizing registry with
  | nil => rfl
  | cons operation rest ih =>
      show Registry.after (operation.qualified.apply registry).value (rest.map _) =
        Registry.after (operation.apply registry).value rest
      rw [apply_qualified, ih]

/-- An identifier is accepted exactly when it is a row of words, and nothing can be registered under
any other text. It stands for a full name: for itself
if it has a double colon, else for the name in the space of the role. A full name stands for itself.
In every registry that operations lead to, the names of factories are those that were registered, each
once and in ascending order; they are full names, and so are the aliases and what these lead to. In
any registry at all an identifier and its full name are interchangeable, and a run leaves the same
registry with all its identifiers in full. -/
theorem identifiers_exact (operations : List Operation) (role : Role) (text : String) :
    let registry := empty.after operations
    ((role.fullName? text).isSome = true ↔ Row text.toList) ∧
      (¬Row text.toList → ∀ (reached : Registry) (plugin : Plugin role),
        reached.register role text plugin =
          .fail reached (.configuration role text "malformed plugin identifier")) ∧
      (∀ name, role.fullName? text = some name →
        (name = text ∨ ¬[':', ':'] <:+: text.toList ∧ name = role.space ++ text) ∧
          Full name ∧ ∀ other : Role, other.fullName? name = some name) ∧
      (∀ name, name ∈ registry.names role ↔ ∃ short plugin,
        .register role short plugin ∈ operations ∧ role.fullName? short = some name) ∧
      (registry.names role).Pairwise (· < ·) ∧
      (∀ name ∈ registry.names role, Full name) ∧
      (∀ entry ∈ registry.aliases role, Full entry.1 ∧ Full entry.2) ∧
      (Row text.toList → ∀ reached : Registry,
        reached.Interchangeable role text (role.qualify text)) ∧
      ∀ start : Registry,
        start.after (operations.map Operation.qualified) = start.after operations := by
  intro registry
  have hnames (name : String) : name ∈ registry.names role ↔ ∃ short plugin,
      .register role short plugin ∈ operations ∧ role.fullName? short = some name := by
    rw [mem_names_after]
    constructor
    · rintro ⟨operation, hmem, hregisters⟩
      obtain ⟨short, plugin, rfl, hname⟩ := Operation.registers_eq_some_iff.mp hregisters
      exact ⟨short, plugin, hmem, hname⟩
    · rintro ⟨short, plugin, hmem, hname⟩
      exact ⟨_, hmem, Operation.registers_eq_some_iff.mpr ⟨short, plugin, rfl, hname⟩⟩
  refine ⟨Role.full_name_is_some_iff,
    fun hrow reached plugin => register_malformed reached plugin hrow,
    fun name hname => ⟨?_, Role.full_of_full_name hname,
      Role.full_name_of_full (Role.full_of_full_name hname)⟩, hnames, Keyed.pairwise_keys _,
    fun name hmem => ?_, full_aliases_after operations role, fun hrow reached => ?_,
    fun start => after_qualified start operations⟩
  · obtain ⟨-, rfl⟩ := Role.full_name_eq_some_iff.mp hname
    exact role.qualify_eq_or text
  · obtain ⟨short, plugin, -, hname⟩ := (hnames name).mp hmem
    exact Role.full_of_full_name hname
  · have htext := is_well_formed_iff.mpr hrow
    exact reached.interchangeable htext (by rwa [Role.is_well_formed_qualify])
      (role.full_name_qualify text)

end Registry

end Schemata
