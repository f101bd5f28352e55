import Schemata.Pipeline.Registry

/-!
# Asking a registry for plugins

`resolve_name_finds` lists the ways in which asking for a name ends, with the registry that is left.
All of them leave a registry that is `Filled`: it differs only by instances that its factories made.
What a reference leads to does not depend on these, `Filled.found_eq`. `choose` is asking only when
there is something to ask for, and `choose_message` says which entries this puts into a journal.
-/

namespace Schemata.Registry

/-- The instance that a factory makes next. -/
def newInstance {π : Type} (registry : Registry) (factory : Factory π) : Instance π :=
  { identity := registry.nextIdentity, maker? := some factory.number, plugin := factory.plugin }

/-- The registry after a factory made an instance under its name. -/
def keep (registry : Registry) (role : Role) (name : String) (factory : Factory (Plugin role)) :
    Registry :=
  let shelf := registry.shelf role
  { registry.withShelf role
      { shelf with loaded := shelf.loaded.set name (registry.newInstance factory) } with
    nextIdentity := registry.nextIdentity + 1
    runs := factory.number :: registry.runs }

/-- The registry after a name was made to lead to another. -/
def withAlias (registry : Registry) (role : Role) (name target : String) : Registry :=
  let shelf := registry.shelf role
  registry.withShelf role { shelf with aliases := shelf.aliases.set name target }

section Shelves

variable (registry : Registry) (role : Role) (name target : String)

@[simp] theorem shelf_put (plugin : Plugin role) :
    (registry.put role name plugin).shelf role =
      { registry.shelf role with
        factories := (registry.shelf role).factories.set name
          { number := registry.nextNumber, plugin }
        loaded := (registry.shelf role).loaded.erase name } := by
  cases role <;> rfl

@[simp] theorem shelf_with_alias :
    (registry.withAlias role name target).shelf role =
      { registry.shelf role with aliases := (registry.shelf role).aliases.set name target } := by
  cases role <;> rfl

@[simp] theorem shelf_keep (factory : Factory (Plugin role)) :
    (registry.keep role name factory).shelf role =
      { registry.shelf role with
        loaded := (registry.shelf role).loaded.set name (registry.newInstance factory) } := by
  cases role <;> rfl

/-- What is counted plays no part in what there is. -/
theorem shelf_counted (number identity : Nat) (runs : List Nat) :
    { registry with nextNumber := number, nextIdentity := identity, runs }.shelf role =
      registry.shelf role := by
  cases role <;> rfl

variable {registry role name target} {other : Role}

/-- The plugins of one role are kept apart from those of the other. -/
theorem shelf_with_shelf_other (h : other ≠ role) (shelf : Shelf (Plugin role)) :
    (registry.withShelf role shelf).shelf other = registry.shelf other := by
  cases role with
  | parser =>
      cases other with
      | parser => exact absurd rfl h
      | producer => rfl
  | producer =>
      cases other with
      | parser => rfl
      | producer => exact absurd rfl h

theorem shelf_put_other (h : other ≠ role) (plugin : Plugin role) :
    (registry.put role name plugin).shelf other = registry.shelf other :=
  (shelf_counted _ other _ _ _).trans (shelf_with_shelf_other h _)

theorem shelf_with_alias_other (h : other ≠ role) :
    (registry.withAlias role name target).shelf other = registry.shelf other :=
  shelf_with_shelf_other h _

theorem shelf_keep_other (h : other ≠ role) (factory : Factory (Plugin role)) :
    (registry.keep role name factory).shelf other = registry.shelf other :=
  (shelf_counted _ other _ _ _).trans (shelf_with_shelf_other h _)

end Shelves

/-- The ways in which asking for a name ends: the registry that is left, and the answer. -/
inductive Finds (registry : Registry) (role : Role) (identifier : String) :
    Registry → Except PipelineError (Instance (Plugin role)) → Prop where
  | unresolved {reason : Unresolved}
      (hcanonical : (registry.canonical role identifier).2 = .error reason) :
      Finds registry role identifier registry (.error (reason.error role identifier))
  | unregistered {name : String} (hcanonical : (registry.canonical role identifier).2 = .ok name)
      (hloaded : (registry.shelf role).loaded.get? name = none)
      (hfactory : (registry.shelf role).factories.get? name = none) :
      Finds registry role identifier registry
        (.error ((Unresolved.unregistered name).error role identifier))
  | loaded {name : String} {made : Instance (Plugin role)}
      (hcanonical : (registry.canonical role identifier).2 = .ok name)
      (hloaded : (registry.shelf role).loaded.get? name = some made) :
      Finds registry role identifier registry (.ok made)
  | made {name : String} {factory : Factory (Plugin role)}
      (hcanonical : (registry.canonical role identifier).2 = .ok name)
      (hloaded : (registry.shelf role).loaded.get? name = none)
      (hfactory : (registry.shelf role).factories.get? name = some factory) :
      Finds registry role identifier (registry.keep role name factory)
        (.ok (registry.newInstance factory))

theorem resolve_name_finds (registry : Registry) (role : Role) (identifier : String) :
    Finds registry role identifier (registry.resolveName role identifier).registry
      (registry.resolveName role identifier).result := by
  rcases hcanonical : registry.canonical role identifier with ⟨journal, reason | name⟩
  · simp only [resolveName, hcanonical]
    exact .unresolved (by rw [hcanonical])
  · have hname : (registry.canonical role identifier).2 = .ok name := by rw [hcanonical]
    cases hloaded : (registry.shelf role).loaded.get? name with
    | some made =>
        simp only [resolveName, hcanonical, load, hloaded]
        exact .loaded hname hloaded
    | none =>
        cases hfactory : (registry.shelf role).factories.get? name with
        | none =>
            simp only [resolveName, hcanonical, load, hloaded, hfactory]
            exact .unregistered hname hloaded hfactory
        | some factory =>
            simp only [resolveName, hcanonical, load, hloaded, hfactory]
            exact .made hname hloaded hfactory

/-- A registry that differs from an earlier one only by instances that its factories made. -/
structure Filled (before after : Registry) : Prop where
  factories : ∀ role, (after.shelf role).factories = (before.shelf role).factories
  aliases : ∀ role, (after.shelf role).aliases = (before.shelf role).aliases
  kept : ∀ role name made, (before.shelf role).loaded.get? name = some made →
    (after.shelf role).loaded.get? name = some made
  made : ∀ role name made, (after.shelf role).loaded.get? name = some made →
    (before.shelf role).loaded.get? name = some made ∨
      (before.shelf role).loaded.get? name = none ∧
        ∃ factory, (before.shelf role).factories.get? name = some factory ∧
          made.maker? = some factory.number ∧ made.plugin = factory.plugin

namespace Filled

variable {before middle after : Registry}

theorem refl (registry : Registry) : Filled registry registry :=
  ⟨fun _ => rfl, fun _ => rfl, fun _ _ _ h => h, fun _ _ _ h => .inl h⟩

theorem trans (h : Filled before middle) (hnext : Filled middle after) : Filled before after where
  factories role := (hnext.factories role).trans (h.factories role)
  aliases role := (hnext.aliases role).trans (h.aliases role)
  kept role name made hmade := hnext.kept role name made (h.kept role name made hmade)
  made role name made hmade := by
    rcases hnext.made role name made hmade with hmiddle | ⟨hmiddle, factory, hfactory, hmaker⟩
    · exact h.made role name made hmiddle
    · refine .inr ⟨?_, factory, h.factories role ▸ hfactory, hmaker⟩
      cases hbefore : (before.shelf role).loaded.get? name with
      | none => rfl
      | some earlier =>
          rw [h.kept role name earlier hbefore] at hmiddle
          cases hmiddle

end Filled

theorem filled_keep {registry : Registry} {role : Role} {name : String}
    {factory : Factory (Plugin role)} (hloaded : (registry.shelf role).loaded.get? name = none)
    (hfactory : (registry.shelf role).factories.get? name = some factory) :
    Filled registry (registry.keep role name factory) where
  factories other := by
    by_cases hrole : other = role
    · subst hrole
      simp
    · rw [shelf_keep_other hrole]
  aliases other := by
    by_cases hrole : other = role
    · subst hrole
      simp
    · rw [shelf_keep_other hrole]
  kept other key made hmade := by
    by_cases hrole : other = role
    · subst hrole
      have hkey : key ≠ name := by
        rintro rfl
        simp [hloaded] at hmade
      simpa [Keyed.get?_set, hkey] using hmade
    · rwa [shelf_keep_other hrole]
  made other key made hmade := by
    by_cases hrole : other = role
    · subst hrole
      by_cases hkey : key = name
      · subst hkey
        obtain rfl : registry.newInstance factory = made := by
          simpa [Keyed.get?_set] using hmade
        exact .inr ⟨hloaded, factory, hfactory, rfl, rfl⟩
      · exact .inl (by simpa [Keyed.get?_set, hkey] using hmade)
    · exact .inl (shelf_keep_other hrole factory ▸ hmade)

theorem Finds.filled {registry after : Registry} {role : Role} {identifier : String}
    {result : Except PipelineError (Instance (Plugin role))}
    (h : Finds registry role identifier after result) : Filled registry after := by
  cases h with
  | unresolved | unregistered | loaded => exact .refl registry
  | made hcanonical hloaded hfactory => exact filled_keep hloaded hfactory

/-- Resolving only ever makes instances. -/
theorem filled_resolve (registry : Registry) (role : Role) (reference : Reference role) :
    Filled registry (registry.resolve role reference).registry := by
  cases reference with
  | named identifier => exact (resolve_name_finds registry role identifier).filled
  | direct plugin => exact .refl registry

theorem Finds.refused {registry after : Registry} {role : Role} {identifier : String}
    {reason : PipelineError} (h : Finds registry role identifier after (.error reason)) :
    after = registry := by
  cases h with
  | unresolved | unregistered => rfl

/-- Resolving that fails leaves the registry as it was. -/
theorem resolve_refused {registry : Registry} {role : Role} {reference : Reference role}
    {reason : PipelineError} (h : (registry.resolve role reference).result = .error reason) :
    (registry.resolve role reference).registry = registry := by
  cases reference with
  | named identifier =>
      have hfinds := resolve_name_finds registry role identifier
      rw [show (registry.resolveName role identifier).result = .error reason from h] at hfinds
      exact hfinds.refused
  | direct plugin => rfl

/-- The instance that is handed out under a full name: the one that is kept, else a new one. -/
def handed? (registry : Registry) (role : Role) (name : String) : Option (Instance (Plugin role)) :=
  ((registry.shelf role).loaded.get? name).or
    (((registry.shelf role).factories.get? name).map registry.newInstance)

theorem resolve_named (registry : Registry) (role : Role) (identifier : String) :
    (registry.resolve role (.named identifier)).result =
      match (registry.canonical role identifier).2 with
      | .error reason => .error (reason.error role identifier)
      | .ok name =>
        match registry.handed? role name with
        | none => .error ((Unresolved.unregistered name).error role identifier)
        | some made => .ok made := by
  have hfinds := resolve_name_finds registry role identifier
  show (registry.resolveName role identifier).result = _
  generalize (registry.resolveName role identifier).registry = after at hfinds
  generalize (registry.resolveName role identifier).result = result at hfinds ⊢
  cases hfinds with
  | unresolved hcanonical => simp [hcanonical]
  | unregistered hcanonical hloaded hfactory => simp [hcanonical, handed?, hloaded, hfactory]
  | loaded hcanonical hloaded => simp [hcanonical, handed?, hloaded]
  | made hcanonical hloaded hfactory => simp [hcanonical, handed?, hloaded, hfactory]

/-- The plugin that a reference leads to. -/
def found (registry : Registry) (role : Role) (reference : Reference role) :
    Except PipelineError (Plugin role) :=
  (registry.resolve role reference).result.map (·.plugin)

/-- The plugin that is handed out under a full name, made or not. -/
def serves? (registry : Registry) (role : Role) (name : String) : Option (Plugin role) :=
  (((registry.shelf role).loaded.get? name).map (·.plugin)).or
    (((registry.shelf role).factories.get? name).map (·.plugin))

theorem serves_eq_handed (registry : Registry) (role : Role) (name : String) :
    registry.serves? role name = (registry.handed? role name).map (·.plugin) := by
  rw [serves?, handed?, Option.map_or, Option.map_map]
  rfl

theorem found_named (registry : Registry) (role : Role) (identifier : String) :
    registry.found role (.named identifier) =
      match (registry.canonical role identifier).2 with
      | .error reason => .error (reason.error role identifier)
      | .ok name =>
        match registry.serves? role name with
        | none => .error ((Unresolved.unregistered name).error role identifier)
        | some plugin => .ok plugin := by
  rw [found, resolve_named]
  rcases (registry.canonical role identifier).2 with reason | name
  · rfl
  · simp only [serves_eq_handed]
    cases registry.handed? role name <;> rfl

namespace Filled

variable {before after : Registry}

theorem serves_eq (h : Filled before after) (role : Role) (name : String) :
    after.serves? role name = before.serves? role name := by
  unfold serves?
  rw [h.factories]
  cases hafter : (after.shelf role).loaded.get? name with
  | none =>
      cases hbefore : (before.shelf role).loaded.get? name with
      | none => rfl
      | some made =>
          rw [h.kept role name made hbefore] at hafter
          cases hafter
  | some made =>
      rcases h.made role name made hafter with hbefore | ⟨hbefore, factory, hfactory, -, hplugin⟩
      · rw [hbefore]
      · simp [hbefore, hfactory, hplugin]

theorem canonical_eq (h : Filled before after) (role : Role) (identifier : String) :
    after.canonical role identifier = before.canonical role identifier := by
  unfold canonical
  rw [h.aliases]

/-- What a reference leads to does not depend on which instances were made before. -/
theorem found_eq (h : Filled before after) (role : Role) (reference : Reference role) :
    after.found role reference = before.found role reference := by
  cases reference with
  | named identifier =>
      rw [found_named, found_named, h.canonical_eq]
      simp only [h.serves_eq]
  | direct plugin => rfl

end Filled

/-- The plugin that is asked for, or the one in place when none is. -/
def choose (registry : Registry) (role : Role) (current : Instance (Plugin role)) :
    Option (Reference role) → Answer role
  | none => { registry, result := .ok current }
  | some reference => registry.resolve role reference

section Choices

variable {registry : Registry} {role : Role} {current : Instance (Plugin role)}
  {reference? : Option (Reference role)} {answer : Answer role}

theorem filled_choose (hanswer : registry.choose role current reference? = answer) :
    Filled registry answer.registry := by
  subst hanswer
  cases reference? with
  | none => exact .refl registry
  | some reference => exact registry.filled_resolve role reference

theorem choose_refused {reason : PipelineError}
    (hanswer : registry.choose role current reference? = answer)
    (h : answer.result = .error reason) : answer.registry = registry := by
  subst hanswer
  cases reference? with
  | none => rfl
  | some reference => exact resolve_refused h

end Choices

section Messages

variable (registry : Registry) (role : Role)

theorem follow_message (aliases : Keyed String) (fuel : Nat) (seen : List String) (name : String) :
    ∀ event ∈ (follow role aliases fuel seen name).1, event.message = "following alias" := by
  induction fuel generalizing seen name with
  | zero => simp [follow]
  | succ fuel ih =>
      unfold follow
      split
      · simp
      · split
        · simp
        · exact List.forall_mem_cons.2 ⟨rfl, ih _ _⟩

theorem canonical_message (identifier : String) :
    ∀ event ∈ (registry.canonical role identifier).1, event.message = "following alias" := by
  unfold canonical
  split
  · simp
  · rename_i full _
    have hfollow := follow_message role (registry.shelf role).aliases
      ((registry.shelf role).aliases.size + 1) [] full
    dsimp only
    generalize follow role _ _ [] full = followed at hfollow ⊢
    rcases followed with ⟨journal, _ | name⟩ <;> exact hfollow

theorem load_message (name : String) :
    ∀ event ∈ (registry.load role name).2.1, event.message = "plugin already loaded" := by
  unfold load
  dsimp only
  split
  · simp
  · split <;> simp

/-- The messages of the entries on a search for a plugin. -/
def searchMessages : List String :=
  ["following alias", "plugin already loaded", "resolved plugin", "using directly supplied plugin"]

theorem resolve_name_message (identifier : String) :
    ∀ event ∈ (registry.resolveName role identifier).journal, event.message ∈ searchMessages := by
  have hfollowing := canonical_message registry role identifier
  rcases hcanonical : registry.canonical role identifier with ⟨journal, reason | name⟩
  · rw [hcanonical] at hfollowing
    simp only [resolveName, hcanonical]
    intro event hevent
    simp [searchMessages, hfollowing event hevent]
  · rw [hcanonical] at hfollowing
    have hloading := load_message registry role name
    rcases hload : registry.load role name with ⟨after, loading, reason | made⟩ <;>
      rw [hload] at hloading
    · simp only [resolveName, hcanonical, hload, List.mem_append]
      rintro event (hevent | hevent)
      · simp [searchMessages, hfollowing event hevent]
      · simp [searchMessages, hloading event hevent]
    · simp only [resolveName, hcanonical, hload, List.mem_append, List.mem_singleton]
      rintro event ((hevent | hevent) | rfl)
      · simp [searchMessages, hfollowing event hevent]
      · simp [searchMessages, hloading event hevent]
      · simp [searchMessages]

theorem choose_message (current : Instance (Plugin role)) (reference? : Option (Reference role)) :
    ∀ event ∈ (registry.choose role current reference?).journal,
      event.message ∈ searchMessages := by
  rcases reference? with _ | identifier | plugin
  · simp [choose]
  · exact resolve_name_message registry role identifier
  · simp [choose, resolve, searchMessages]

end Messages

end Schemata.Registry
