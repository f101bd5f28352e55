import Mathlib.Data.List.Induction
import Schemata.Proofs.Pipeline.Registry

/-!
# Operations on a registry

A run is a list of operations on a registry; clones of a registry share what they hold, so it does
not matter through which of them an operation comes. `Operation.Effect` says what an operation
changes, and every invariant is read off it: `Genuine` that what is kept was made by the factory
under its name, `Counted` how numbers and identities are given out. `after_keeps` lifts what every
operation keeps to runs.
-/

namespace Schemata

/-- An operation on a registry. -/
inductive Operation where
  | register (role : Role) (name : String) (plugin : Plugin role)
  | registerAlias (role : Role) (name target : String)
  | resolve (role : Role) (reference : Reference role)
  /-- Make a plugin without a factory, to be handed over. -/
  | adopt (role : Role) (plugin : Plugin role)

namespace Operation

/-- Do an operation. -/
def apply (registry : Registry) : Operation → Progress PipelineError Registry
  | register role name plugin => registry.register role name plugin
  | registerAlias role name target => registry.registerAlias role name target
  | resolve role reference =>
    let answer := registry.resolve role reference
    { value := answer.registry
      journal := answer.journal
      failure := match answer.result with
        | .error reason => some reason
        | .ok _ => none }
  | adopt _ plugin => .pure (registry.adopt plugin).2

/-- The role whose plugins an operation is about. -/
def role : Operation → Role
  | register role _ _ => role
  | registerAlias role _ _ => role
  | resolve role _ => role
  | adopt role _ => role

/-- The role and the full name that an operation registers a factory for. -/
def registers? : Operation → Option (Role × String)
  | register role name _ => (role.fullName? name).map fun full => (role, full)
  | _ => none

/-- What an operation changes in a registry. -/
inductive Effect : Operation → Registry → Registry → Prop where
  | registered {registry : Registry} {role : Role} {name full : String} {plugin : Plugin role}
      (hname : role.fullName? name = some full) :
      Effect (.register role name plugin) registry (registry.put role full plugin)
  | aliased {registry : Registry} {role : Role} {name target full fullTarget : String}
      (hname : role.fullName? name = some full) (htarget : role.fullName? target = some fullTarget) :
      Effect (.registerAlias role name target) registry (registry.withAlias role full fullTarget)
  | made {registry : Registry} {role : Role} {identifier name : String}
      {factory : Factory (Plugin role)}
      (hloaded : (registry.shelf role).loaded.get? name = none)
      (hfactory : (registry.shelf role).factories.get? name = some factory) :
      Effect (.resolve role (.named identifier)) registry (registry.keep role name factory)
  | adopted (registry : Registry) (role : Role) (plugin : Plugin role) :
      Effect (.adopt role plugin) registry
        { registry with nextIdentity := registry.nextIdentity + 1 }
  /-- A refused operation, or one that hands out what is there. -/
  | unchanged {operation : Operation} (registry : Registry) (h : operation.registers? = none) :
      Effect operation registry registry

theorem Effect.of_finds {registry after : Registry} {role : Role} {identifier : String}
    {result : Except PipelineError (Instance (Plugin role))}
    (h : registry.Finds role identifier after result) :
    Effect (.resolve role (.named identifier)) registry after := by
  cases h with
  | unresolved | unregistered | loaded => exact .unchanged registry rfl
  | made hcanonical hloaded hfactory => exact .made hloaded hfactory

theorem apply_effect (operation : Operation) (registry : Registry) :
    operation.Effect registry (operation.apply registry).value := by
  cases operation with
  | register role name plugin =>
      cases hname : role.fullName? name with
      | none =>
          simp only [apply, Registry.register, hname, Progress.fail]
          exact .unchanged registry (by simp [registers?, hname])
      | some full =>
          simp only [apply, Registry.register, hname, Progress.step]
          exact .registered hname
  | registerAlias role name target =>
      cases hname : role.fullName? name with
      | none =>
          simp only [apply, Registry.registerAlias, hname, Progress.fail]
          exact .unchanged registry rfl
      | some full =>
          cases htarget : role.fullName? target with
          | none =>
              simp only [apply, Registry.registerAlias, hname, htarget, Progress.fail]
              exact .unchanged registry rfl
          | some fullTarget =>
              simp only [apply, Registry.registerAlias, hname, htarget, Progress.step]
              exact .aliased hname htarget
  | resolve role reference =>
      cases reference with
      | named identifier => exact .of_finds (registry.resolve_name_finds role identifier)
      | direct plugin => exact .unchanged registry rfl
  | adopt role plugin => exact .adopted registry role plugin

/-- An operation that is refused changes nothing. -/
theorem apply_refused {operation : Operation} {registry : Registry}
    (h : (operation.apply registry).failure ≠ none) :
    (operation.apply registry).value = registry := by
  cases operation with
  | register role name plugin =>
      cases hname : role.fullName? name with
      | none => simp [apply, Registry.register, hname, Progress.fail]
      | some full => simp [apply, Registry.register, hname, Progress.step] at h
  | registerAlias role name target =>
      cases hname : role.fullName? name with
      | none => simp [apply, Registry.registerAlias, hname, Progress.fail]
      | some full =>
          cases htarget : role.fullName? target with
          | none => simp [apply, Registry.registerAlias, hname, htarget, Progress.fail]
          | some fullTarget =>
              simp [apply, Registry.registerAlias, hname, htarget, Progress.step] at h
  | resolve role reference =>
      cases hresult : (registry.resolve role reference).result with
      | error reason => exact Registry.resolve_refused hresult
      | ok made => simp [apply, hresult] at h
  | adopt role plugin => simp [apply, Progress.pure] at h

end Operation

namespace Registry

/-- The number of the factory under a full name. -/
def number? (registry : Registry) (role : Role) (name : String) : Option Nat :=
  ((registry.shelf role).factories.get? name).map (·.number)

/-- The identity of the instance that is kept under a full name. -/
def identity? (registry : Registry) (role : Role) (name : String) : Option Nat :=
  ((registry.shelf role).loaded.get? name).map (·.identity)

section Numbers

variable (registry : Registry) (role other : Role) (name key target : String)

@[simp] theorem number?_put (plugin : Plugin role) :
    (registry.put role name plugin).number? other key =
      if other = role ∧ key = name then some registry.nextNumber
      else registry.number? other key := by
  by_cases hrole : other = role
  · subst hrole
    by_cases hkey : key = name <;> simp [number?, Keyed.get?_set, hkey]
  · simp [number?, shelf_put_other hrole, hrole]

@[simp] theorem identity?_put (plugin : Plugin role) :
    (registry.put role name plugin).identity? other key =
      if other = role ∧ key = name then none else registry.identity? other key := by
  by_cases hrole : other = role
  · subst hrole
    by_cases hkey : key = name <;> simp [identity?, Keyed.get?_erase, hkey]
  · simp [identity?, shelf_put_other hrole, hrole]

@[simp] theorem number?_with_alias :
    (registry.withAlias role name target).number? other key = registry.number? other key := by
  by_cases hrole : other = role
  · subst hrole
    simp [number?]
  · simp [number?, shelf_with_alias_other hrole]

@[simp] theorem identity?_with_alias :
    (registry.withAlias role name target).identity? other key = registry.identity? other key := by
  by_cases hrole : other = role
  · subst hrole
    simp [identity?]
  · simp [identity?, shelf_with_alias_other hrole]

@[simp] theorem number?_keep (factory : Factory (Plugin role)) :
    (registry.keep role name factory).number? other key = registry.number? other key := by
  by_cases hrole : other = role
  · subst hrole
    simp [number?]
  · simp [number?, shelf_keep_other hrole]

@[simp] theorem identity?_keep (factory : Factory (Plugin role)) :
    (registry.keep role name factory).identity? other key =
      if other = role ∧ key = name then some registry.nextIdentity
      else registry.identity? other key := by
  by_cases hrole : other = role
  · subst hrole
    by_cases hkey : key = name <;> simp [identity?, Keyed.get?_set, hkey, newInstance]
  · simp [identity?, shelf_keep_other hrole, hrole]

@[simp] theorem next_identity_put (plugin : Plugin role) :
    (registry.put role name plugin).nextIdentity = registry.nextIdentity := by
  cases role <;> rfl

@[simp] theorem runs_put (plugin : Plugin role) :
    (registry.put role name plugin).runs = registry.runs := by
  cases role <;> rfl

@[simp] theorem next_number_put (plugin : Plugin role) :
    (registry.put role name plugin).nextNumber = registry.nextNumber + 1 := rfl

@[simp] theorem next_identity_with_alias :
    (registry.withAlias role name target).nextIdentity = registry.nextIdentity := by
  cases role <;> rfl

@[simp] theorem runs_with_alias : (registry.withAlias role name target).runs = registry.runs := by
  cases role <;> rfl

@[simp] theorem next_number_with_alias :
    (registry.withAlias role name target).nextNumber = registry.nextNumber := by
  cases role <;> rfl

@[simp] theorem next_identity_keep (factory : Factory (Plugin role)) :
    (registry.keep role name factory).nextIdentity = registry.nextIdentity + 1 := rfl

@[simp] theorem runs_keep (factory : Factory (Plugin role)) :
    (registry.keep role name factory).runs = factory.number :: registry.runs := rfl

@[simp] theorem next_number_keep (factory : Factory (Plugin role)) :
    (registry.keep role name factory).nextNumber = registry.nextNumber := by
  cases role <;> rfl

@[simp] theorem identity?_next_identity (identity : Nat) :
    { registry with nextIdentity := identity }.identity? role name =
      registry.identity? role name := by
  cases role <;> rfl

end Numbers

/-- Every instance that is kept was made by the factory under its name. -/
def Genuine (registry : Registry) : Prop :=
  ∀ role name made, (registry.shelf role).loaded.get? name = some made →
    ∃ factory, (registry.shelf role).factories.get? name = some factory ∧
      made.maker? = some factory.number ∧ made.plugin = factory.plugin

/-- How numbers and identities are given out. -/
structure Counted (registry : Registry) : Prop where
  numbered : ∀ role name number, registry.number? role name = some number →
    number < registry.nextNumber
  factories : ∀ role name other key number, registry.number? role name = some number →
    registry.number? other key = some number → role = other ∧ name = key
  identified : ∀ role name identity, registry.identity? role name = some identity →
    identity < registry.nextIdentity
  instances : ∀ role name other key identity, registry.identity? role name = some identity →
    registry.identity? other key = some identity → role = other ∧ name = key
  ran : ∀ number ∈ registry.runs, number < registry.nextNumber
  once : registry.runs.Nodup
  /-- A factory whose name has no instance was not run. -/
  idle : ∀ role name number, registry.number? role name = some number →
    registry.identity? role name = none → number ∉ registry.runs

theorem genuine_empty : empty.Genuine := by
  intro role name made h
  cases role <;> cases h

theorem counted_empty : empty.Counted := by
  have hnumber (role : Role) (name : String) : empty.number? role name = none := by
    cases role <;> rfl
  have hidentity (role : Role) (name : String) : empty.identity? role name = none := by
    cases role <;> rfl
  constructor
  · simp [hnumber]
  · simp [hnumber]
  · simp [hidentity]
  · simp [hidentity]
  · simp [empty]
  · simp [empty]
  · simp [hnumber]

namespace Counted

variable {registry : Registry}

/-- The number of a new factory is none that was given out. -/
theorem put (h : registry.Counted) (role : Role) (name : String) (plugin : Plugin role) :
    (registry.put role name plugin).Counted where
  numbered other key number hnumber := by
    have hold := h.numbered other key number
    rw [number?_put] at hnumber
    rw [next_number_put]
    grind
  factories first key second other number hfirst hsecond := by
    have hold := h.factories first key second other number
    have hnumbered := h.numbered
    rw [number?_put] at hfirst hsecond
    grind
  identified other key identity hidentity := by
    have hold := h.identified other key identity
    rw [identity?_put] at hidentity
    rw [next_identity_put]
    grind
  instances first key second other identity hfirst hsecond := by
    have hold := h.instances first key second other identity
    rw [identity?_put] at hfirst hsecond
    grind
  ran number hnumber := by
    rw [runs_put] at hnumber
    exact Nat.lt_succ_of_lt (h.ran number hnumber)
  once := by
    rw [runs_put]
    exact h.once
  idle other key number hnumber hidentity := by
    rw [number?_put] at hnumber
    rw [identity?_put] at hidentity
    rw [runs_put]
    split at hnumber
    · cases hnumber
      exact fun hran => Nat.lt_irrefl _ (h.ran _ hran)
    · rename_i hother
      rw [if_neg hother] at hidentity
      exact h.idle other key number hnumber hidentity

/-- A factory that makes an instance was not run before. -/
theorem keep (h : registry.Counted) {role : Role} {name : String}
    {factory : Factory (Plugin role)} (hidentity : registry.identity? role name = none)
    (hnumber : registry.number? role name = some factory.number) :
    (registry.keep role name factory).Counted where
  numbered other key number hother := by
    rw [number?_keep] at hother
    rw [next_number_keep]
    exact h.numbered other key number hother
  factories first key second other number hfirst hsecond := by
    rw [number?_keep] at hfirst hsecond
    exact h.factories first key second other number hfirst hsecond
  identified other key identity hother := by
    have hold := h.identified other key identity
    rw [identity?_keep] at hother
    rw [next_identity_keep]
    grind
  instances first key second other identity hfirst hsecond := by
    have hold := h.instances first key second other identity
    have hidentified := h.identified
    rw [identity?_keep] at hfirst hsecond
    grind
  ran number hran := by
    rw [runs_keep, List.mem_cons] at hran
    rw [next_number_keep]
    rcases hran with rfl | hran
    · exact h.numbered role name _ hnumber
    · exact h.ran number hran
  once := by
    rw [runs_keep, List.nodup_cons]
    exact ⟨h.idle role name _ hnumber hidentity, h.once⟩
  idle other key number hother hnone := by
    rw [number?_keep] at hother
    rw [identity?_keep] at hnone
    rw [runs_keep, List.mem_cons, not_or]
    split at hnone
    · cases hnone
    · rename_i hkey
      refine ⟨?_, h.idle other key number hother hnone⟩
      rintro rfl
      exact hkey (h.factories other key role name _ hother hnumber)

end Counted

end Registry

namespace Operation.Effect

variable {operation : Operation} {registry reached : Registry}

/-- A factory under a full name is the whole effect of registering it. -/
theorem eq_put {role : Role} {name : String} (h : operation.Effect registry reached)
    (hregisters : operation.registers? = some (role, name)) :
    ∃ short plugin, operation = .register role short plugin ∧ role.fullName? short = some name ∧
      reached = registry.put role name plugin := by
  cases h with
  | registered hname =>
      simp only [registers?, hname, Option.map_some, Option.some.injEq, Prod.mk.injEq] at hregisters
      obtain ⟨rfl, rfl⟩ := hregisters
      exact ⟨_, _, rfl, hname, rfl⟩
  | aliased | made | adopted => cases hregisters
  | unchanged _ hnone => rw [hnone] at hregisters; cases hregisters

theorem shelf_other (h : operation.Effect registry reached) {other : Role}
    (hrole : other ≠ operation.role) : reached.shelf other = registry.shelf other := by
  cases h with
  | registered hname => exact Registry.shelf_put_other hrole _
  | aliased hname htarget => exact Registry.shelf_with_alias_other hrole
  | made hloaded hfactory => exact Registry.shelf_keep_other hrole _
  | adopted role plugin => exact Registry.shelf_counted _ _ _ _ _
  | unchanged => rfl

/-- A factory stays until another takes its name. -/
theorem factory_kept (h : operation.Effect registry reached) {role : Role} {name : String}
    (hother : operation.registers? ≠ some (role, name)) :
    (reached.shelf role).factories.get? name = (registry.shelf role).factories.get? name := by
  by_cases hrole : role = operation.role
  · subst hrole
    cases h with
    | @registered _ _ _ full _ hname =>
        have hne : name ≠ full := fun heq => hother (by simp [registers?, role, hname, heq])
        simp [role, Keyed.get?_set, hne]
    | aliased | made | unchanged => simp [role]
    | adopted registry role plugin => rw [Registry.shelf_counted]
  · rw [h.shelf_other hrole]

/-- An instance stays until another factory takes its name. -/
theorem instance_kept (h : operation.Effect registry reached) {role : Role} {name : String}
    (hother : operation.registers? ≠ some (role, name)) {made : Instance (Plugin role)}
    (hmade : (registry.shelf role).loaded.get? name = some made) :
    (reached.shelf role).loaded.get? name = some made := by
  by_cases hrole : role = operation.role
  · subst hrole
    cases h with
    | @registered _ _ _ full _ hname =>
        have hne : name ≠ full := fun heq => hother (by simp [registers?, role, hname, heq])
        simpa [role, Keyed.get?_erase, hne] using hmade
    | aliased | unchanged => simpa [role] using hmade
    | @made _ _ _ key _ hloaded hfactory =>
        have hne : name ≠ key := by
          rintro rfl
          cases hloaded.symm.trans hmade
        simpa [role, Keyed.get?_set, hne] using hmade
    | adopted registry role plugin => rwa [Registry.shelf_counted]
  · rwa [h.shelf_other hrole]

theorem next_number_eq (h : operation.Effect registry reached) :
    reached.nextNumber =
      registry.nextNumber + if operation.registers?.isSome then 1 else 0 := by
  cases h with
  | registered hname => simp [registers?, hname]
  | aliased | made => simp [registers?]
  | adopted => rfl
  | unchanged _ hnone => simp [hnone]

theorem next_identity_le (h : operation.Effect registry reached) :
    registry.nextIdentity ≤ reached.nextIdentity := by
  cases h with
  | registered | aliased | made | unchanged => simp
  | adopted => exact Nat.le_succ _

/-- An instance that was not there before has a new identity. -/
theorem identity_new (h : operation.Effect registry reached) {role : Role} {name : String}
    {identity : Nat} (hreached : reached.identity? role name = some identity) :
    registry.identity? role name = some identity ∨ identity = registry.nextIdentity := by
  cases h with
  | registered hname =>
      rw [Registry.identity?_put] at hreached
      split at hreached
      · cases hreached
      · exact .inl hreached
  | aliased => exact .inl (by simpa using hreached)
  | made hloaded hfactory =>
      rw [Registry.identity?_keep] at hreached
      split at hreached
      · exact .inr (Option.some.inj hreached).symm
      · exact .inl hreached
  | adopted => exact .inl (by simpa using hreached)
  | unchanged => exact .inl hreached

theorem genuine (h : operation.Effect registry reached) (hgenuine : registry.Genuine) :
    reached.Genuine := by
  intro role name made hmade
  by_cases hregisters : operation.registers? = some (role, name)
  · obtain ⟨short, plugin, rfl, -, rfl⟩ := h.eq_put hregisters
    simp [Keyed.get?_erase] at hmade
  · rw [h.factory_kept hregisters]
    by_cases hrole : role = operation.role
    · subst hrole
      cases h with
      | @registered _ _ _ full _ hname =>
          have hne : name ≠ full := fun heq => hregisters (by simp [registers?, role, hname, heq])
          exact hgenuine _ name made (by simpa [role, Keyed.get?_erase, hne] using hmade)
      | aliased | unchanged => exact hgenuine _ name made (by simpa [role] using hmade)
      | @made _ _ _ key factory hloaded hfactory =>
          by_cases hkey : name = key
          · subst hkey
            have hnew : some (registry.newInstance factory) = some made := by
              simpa [role, Keyed.get?_set] using hmade
            cases hnew
            exact ⟨factory, hfactory, rfl, rfl⟩
          · exact hgenuine _ name made (by simpa [role, Keyed.get?_set, hkey] using hmade)
      | adopted registry role plugin =>
          rw [Registry.shelf_counted] at hmade
          exact hgenuine _ name made hmade
    · rw [h.shelf_other hrole] at hmade
      exact hgenuine role name made hmade

theorem counted (h : operation.Effect registry reached) (hcounted : registry.Counted) :
    reached.Counted := by
  cases h with
  | registered hname => exact hcounted.put _ _ _
  | aliased hname htarget =>
      obtain ⟨hnumbered, hfactories, hidentified, hinstances, hran, honce, hidle⟩ := hcounted
      constructor <;> simpa
  | made hloaded hfactory =>
      exact hcounted.keep (by simp [Registry.identity?, hloaded])
        (by simp [Registry.number?, hfactory])
  | adopted =>
      obtain ⟨hnumbered, hfactories, hidentified, hinstances, hran, honce, hidle⟩ := hcounted
      refine ⟨?_, ?_, fun role name identity h => ?_, ?_, hran, honce, ?_⟩
      · simpa
      · simpa
      · exact Nat.lt_succ_of_lt (hidentified role name identity (by simpa using h))
      · simpa
      · simpa
  | unchanged => exact hcounted

end Operation.Effect

namespace Registry

/-- The registry after some operations, of which any may have been refused. -/
def after (registry : Registry) (operations : List Operation) : Registry :=
  operations.foldl (fun reached operation => (operation.apply reached).value) registry

/-- How many factories some operations register. -/
def registrations (operations : List Operation) : Nat :=
  operations.countP fun operation => operation.registers?.isSome

variable {registry : Registry}

theorem after_append (registry : Registry) (operations later : List Operation) :
    registry.after (operations ++ later) = (registry.after operations).after later :=
  List.foldl_append

/-- What every effect keeps holds after any operations. -/
theorem after_keeps {P : Registry → Prop} {operations : List Operation}
    (hstep : ∀ operation ∈ operations, ∀ registry reached, operation.Effect registry reached →
      P registry → P reached) (h : P registry) : P (registry.after operations) := by
  induction operations generalizing registry with
  | nil => exact h
  | cons operation rest ih =>
      exact ih (fun other hother => hstep other (by simp [hother]))
        (hstep operation (by simp) registry _ (operation.apply_effect registry) h)

theorem genuine_after (operations : List Operation) : (empty.after operations).Genuine :=
  after_keeps (fun _ _ _ _ heffect => heffect.genuine) genuine_empty

theorem counted_after (operations : List Operation) : (empty.after operations).Counted :=
  after_keeps (fun _ _ _ _ heffect => heffect.counted) counted_empty

/-- Factories are numbered in the order in which they are registered. -/
theorem next_number_after (operations : List Operation) :
    (empty.after operations).nextNumber = registrations operations := by
  induction operations using List.reverseRecOn with
  | nil => rfl
  | append_singleton before operation ih =>
      rw [after_append, registrations, List.countP_append, ← registrations, ← ih,
        List.countP_singleton]
      exact (operation.apply_effect _).next_number_eq

end Registry

end Schemata
