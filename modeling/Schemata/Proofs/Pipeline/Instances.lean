import Schemata.Proofs.Pipeline.Operations

/-!
# Which instance a registry hands out

The main statement, `reachable_registry`, follows a registry through any run: what is handed out
under a name was made by the factory that was registered there last, and is handed out until the next
factory takes the name.
-/

namespace Schemata

namespace Registry

variable {registry : Registry}

/-- An instance is kept under a full name. -/
def Keeps (role : Role) (name : String) (made : Instance (Plugin role)) (registry : Registry) :
    Prop :=
  (registry.shelf role).loaded.get? name = some made

/-- An instance is kept as long as no other factory takes its name. -/
theorem keeps_after {operations : List Operation} {role : Role} {name : String}
    {made : Instance (Plugin role)} (h : registry.Keeps role name made)
    (hother : ∀ operation ∈ operations, operation.registers? ≠ some (role, name)) :
    (registry.after operations).Keeps role name made :=
  after_keeps
    (fun operation hmem _ _ heffect => heffect.instance_kept (hother operation hmem)) h

/-- The factory is the one that was registered last under a full name, so its number is how many
were registered before it. -/
def Latest (operations : List Operation) (role : Role) (name : String)
    (factory : Factory (Plugin role)) : Prop :=
  ∃ before short later, operations = before ++ .register role short factory.plugin :: later ∧
    role.fullName? short = some name ∧
    (∀ operation ∈ later, operation.registers? ≠ some (role, name)) ∧
    factory.number = registrations before

/-- The factory under a full name is the one that was registered there last. -/
theorem latest_after {operations : List Operation} {role : Role} {name : String}
    {factory : Factory (Plugin role)}
    (h : ((empty.after operations).shelf role).factories.get? name = some factory) :
    Latest operations role name factory := by
  induction operations using List.reverseRecOn with
  | nil => cases role <;> cases h
  | append_singleton before operation ih =>
      rw [after_append] at h
      have heffect := operation.apply_effect (empty.after before)
      by_cases hregisters : operation.registers? = some (role, name)
      · obtain ⟨short, plugin, rfl, hname, hput⟩ := heffect.eq_put hregisters
        rw [show (empty.after before).after [.register role short plugin] = _ from hput] at h
        have hfactory : some { number := (empty.after before).nextNumber, plugin } = some factory := by
          simpa [Keyed.get?_set] using h
        cases hfactory
        exact ⟨before, short, [], rfl, hname, by simp, next_number_after before⟩
      · obtain ⟨first, short, later, rfl, hname, hlater, hnumber⟩ :=
          ih ((heffect.factory_kept hregisters).symm.trans h)
        refine ⟨first, short, later ++ [operation], by simp, hname, ?_, hnumber⟩
        intro other hother
        rcases List.mem_append.mp hother with hother | hother
        · exact hlater other hother
        · exact List.mem_singleton.mp hother ▸ hregisters

/-- What is found under a name is kept under the name that it leads to. -/
theorem resolve_kept {role : Role} {identifier : String} {made : Instance (Plugin role)}
    (h : (registry.resolve role (.named identifier)).result = .ok made) :
    ∃ name, (registry.canonical role identifier).2 = .ok name ∧
      (registry.resolve role (.named identifier)).registry.Keeps role name made := by
  have hfinds := registry.resolve_name_finds role identifier
  rw [show (registry.resolveName role identifier).result = .ok made from h] at hfinds
  show ∃ name, _ ∧ (registry.resolveName role identifier).registry.Keeps role name made
  generalize (registry.resolveName role identifier).registry = after at hfinds
  cases hfinds with
  | loaded hcanonical hloaded => exact ⟨_, hcanonical, hloaded⟩
  | made hcanonical hloaded hfactory => exact ⟨_, hcanonical, by simp [Keeps, Keyed.get?_set]⟩

/-- What is kept under the name that an identifier leads to is found. -/
theorem Keeps.resolve_eq {role : Role} {identifier name : String} {made : Instance (Plugin role)}
    (h : registry.Keeps role name made)
    (hcanonical : (registry.canonical role identifier).2 = .ok name) :
    (registry.resolve role (.named identifier)).result = .ok made := by
  have hfinds := registry.resolve_name_finds role identifier
  show (registry.resolveName role identifier).result = .ok made
  generalize (registry.resolveName role identifier).registry = after at hfinds
  generalize (registry.resolveName role identifier).result = result at hfinds ⊢
  cases hfinds with
  | unresolved hother => cases hcanonical.symm.trans hother
  | unregistered hother hloaded hfactory =>
      cases hcanonical.symm.trans hother
      cases h.symm.trans hloaded
  | loaded hother hloaded =>
      cases hcanonical.symm.trans hother
      cases h.symm.trans hloaded
      rfl
  | made hother hloaded hfactory =>
      cases hcanonical.symm.trans hother
      cases h.symm.trans hloaded

/-- An identity was given out and is found under no other name than this. -/
def HeldAt (identity : Nat) (role : Role) (name : String) (registry : Registry) : Prop :=
  identity < registry.nextIdentity ∧
    ∀ other key, registry.identity? other key = some identity → other = role ∧ key = name

/-- An identity was given out and is not found any more. -/
def Gone (identity : Nat) (registry : Registry) : Prop :=
  identity < registry.nextIdentity ∧ ∀ other key, registry.identity? other key ≠ some identity

end Registry

namespace Operation.Effect

variable {operation : Operation} {registry reached : Registry}

/-- Identities are not given out twice. -/
theorem identity_old (h : operation.Effect registry reached) {role : Role} {name : String}
    {identity : Nat} (hidentity : identity < registry.nextIdentity)
    (hreached : reached.identity? role name = some identity) :
    registry.identity? role name = some identity := by
  rcases h.identity_new hreached with hold | rfl
  · exact hold
  · exact absurd hidentity (Nat.lt_irrefl _)

theorem held_at (h : operation.Effect registry reached) {identity : Nat} {role : Role}
    {name : String} (hheld : registry.HeldAt identity role name) :
    reached.HeldAt identity role name :=
  ⟨Nat.lt_of_lt_of_le hheld.1 h.next_identity_le,
    fun other key hreached => hheld.2 other key (h.identity_old hheld.1 hreached)⟩

theorem gone (h : operation.Effect registry reached) {identity : Nat}
    (hgone : registry.Gone identity) : reached.Gone identity :=
  ⟨Nat.lt_of_lt_of_le hgone.1 h.next_identity_le,
    fun other key hreached => hgone.2 other key (h.identity_old hgone.1 hreached)⟩

/-- Another factory under the name puts an identity out of use. -/
theorem gone_of_registers (h : operation.Effect registry reached) {identity : Nat} {role : Role}
    {name : String} (hheld : registry.HeldAt identity role name)
    (hregisters : operation.registers? = some (role, name)) : reached.Gone identity := by
  refine ⟨Nat.lt_of_lt_of_le hheld.1 h.next_identity_le, fun other key hreached => ?_⟩
  obtain ⟨rfl, rfl⟩ := hheld.2 other key (h.identity_old hheld.1 hreached)
  obtain ⟨short, plugin, rfl, -, rfl⟩ := h.eq_put hregisters
  simp at hreached

end Operation.Effect

namespace Registry

variable {registry : Registry}

theorem Keeps.identity_eq {role : Role} {name : String} {made : Instance (Plugin role)}
    (h : registry.Keeps role name made) : registry.identity? role name = some made.identity := by
  rw [identity?, show (registry.shelf role).loaded.get? name = some made from h]
  rfl

theorem Keeps.held_at {role : Role} {name : String} {made : Instance (Plugin role)}
    (h : registry.Keeps role name made) (hcounted : registry.Counted) :
    registry.HeldAt made.identity role name := by
  refine ⟨hcounted.identified role name _ h.identity_eq, fun other key hother => ?_⟩
  exact hcounted.instances other key role name _ hother h.identity_eq

theorem gone_after {identity : Nat} (h : registry.Gone identity) (operations : List Operation) :
    (registry.after operations).Gone identity :=
  after_keeps (fun _ _ _ _ heffect => heffect.gone) h

theorem held_at_after {identity : Nat} {role : Role} {name : String}
    (h : registry.HeldAt identity role name) (operations : List Operation) :
    (registry.after operations).HeldAt identity role name :=
  after_keeps (fun _ _ _ _ heffect => heffect.held_at) h

/-- Where an identity is found again, its name was not taken in between. -/
theorem not_registers_of_found {identity : Nat} {role : Role} {name : String}
    (h : registry.HeldAt identity role name) {operations : List Operation} {other : Role}
    {key : String} (hfound : (registry.after operations).identity? other key = some identity)
    {operation : Operation} (hmem : operation ∈ operations) :
    operation.registers? ≠ some (role, name) := by
  intro hregisters
  obtain ⟨before, later, rfl⟩ := List.append_of_mem hmem
  have hbefore := held_at_after h before
  have hgone := (operation.apply_effect _).gone_of_registers hbefore hregisters
  rw [after_append] at hfound
  exact (gone_after hgone later).2 other key hfound

/-- Asking twice gives the same instance exactly when both identifiers lead to one name and no other
factory took it in between. -/
theorem same_instance_iff (hcounted : registry.Counted) {role : Role} {identifier other : String}
    {between : List Operation} {made later : Instance (Plugin role)}
    (hmade : (registry.resolve role (.named identifier)).result = .ok made)
    (hlater : ((registry.after (.resolve role (.named identifier) :: between)).resolve role
      (.named other)).result = .ok later) :
    (made.identity = later.identity ↔
      ∃ name, (registry.canonical role identifier).2 = .ok name ∧
        ((registry.after (.resolve role (.named identifier) :: between)).canonical role other).2 =
          .ok name ∧
        ∀ operation ∈ between, operation.registers? ≠ some (role, name)) ∧
      (made.identity = later.identity → made = later) := by
  obtain ⟨name, hname, hkept⟩ := resolve_kept hmade
  obtain ⟨key, hkey, hkeptLater⟩ := resolve_kept hlater
  have hcounted := ((Operation.resolve role (.named identifier)).apply_effect registry).counted hcounted
  -- the second time is one more operation after those in between
  have hagain : ((registry.resolve role (.named identifier)).registry.after
      (between ++ [.resolve role (.named other)])).Keeps role key later := by
    rw [after_append]
    exact hkeptLater
  have hsame (h : name = key)
      (hother : ∀ operation ∈ between, operation.registers? ≠ some (role, name)) :
      made = later := by
    subst h
    have hfound := (keeps_after hkept hother).resolve_eq hkey
    cases hfound.symm.trans hlater
    rfl
  have hforward (h : made.identity = later.identity) :
      name = key ∧ ∀ operation ∈ between, operation.registers? ≠ some (role, name) := by
    have hheld := hkept.held_at hcounted
    have hfound := hagain.identity_eq
    rw [← h] at hfound
    refine ⟨((held_at_after hheld _).2 role key hfound).2.symm, fun operation hmem => ?_⟩
    exact not_registers_of_found hheld hfound (List.mem_append_left _ hmem)
  refine ⟨⟨fun h => ?_, ?_⟩, fun h => hsame (hforward h).1 (hforward h).2⟩
  · obtain ⟨rfl, hother⟩ := hforward h
    exact ⟨name, hname, hkey, hother⟩
  · rintro ⟨found, hfirst, hsecond, hother⟩
    cases hname.symm.trans hfirst
    cases hkey.symm.trans hsecond
    rw [hsame rfl hother]

/-- The registry of the plugins that pass on what they are given is one that operations lead to. -/
theorem builtin_eq_after :
    builtin = empty.after
      [.register .parser "identity" identityParser, .register .producer "identity" identityProducer] := by
  rfl

/-- In every registry that operations lead to, an instance is kept only under a name with a factory
and was made by it, and no factory was run twice. What is handed out for an identifier was made by
the factory registered last under the name that it leads to. Of two instances handed out in a role
both are the same exactly when their identifiers lead to one name and no other factory took it in
between. An operation that is refused changes nothing, and one on the plugins of a role leaves those
of the other alone. -/
theorem reachable_registry (operations : List Operation) :
    let registry := empty.after operations
    (∀ role name made, (registry.shelf role).loaded.get? name = some made →
      ∃ factory, (registry.shelf role).factories.get? name = some factory ∧
        made.maker? = some factory.number ∧ made.plugin = factory.plugin) ∧
      (∀ role identifier made, (registry.resolve role (.named identifier)).result = .ok made →
        ∃ name factory, (registry.canonical role identifier).2 = .ok name ∧
          Latest operations role name factory ∧
          made.maker? = some factory.number ∧ made.plugin = factory.plugin) ∧
      (∀ role identifier made between other later,
        (registry.resolve role (.named identifier)).result = .ok made →
        let reached := registry.after (.resolve role (.named identifier) :: between)
        (reached.resolve role (.named other)).result = .ok later →
        (made.identity = later.identity ↔
          ∃ name, (registry.canonical role identifier).2 = .ok name ∧
            (reached.canonical role other).2 = .ok name ∧
            ∀ operation ∈ between, operation.registers? ≠ some (role, name)) ∧
          (made.identity = later.identity → made = later)) ∧
      (registry.runs.Nodup ∧ ∀ number ∈ registry.runs, number < registrations operations) ∧
      (∀ operation : Operation, (operation.apply registry).failure ≠ none →
        (operation.apply registry).value = registry) ∧
      ∀ (operation : Operation) (other : Role), other ≠ operation.role →
        (operation.apply registry).value.shelf other = registry.shelf other := by
  intro registry
  have hcounted := counted_after operations
  refine ⟨genuine_after operations, fun role identifier made hmade => ?_,
    fun _ _ _ _ _ _ hmade hlater => same_instance_iff hcounted hmade hlater,
    ⟨hcounted.once, fun number hran => ?_⟩, fun _ => Operation.apply_refused,
    fun operation _ hrole => (operation.apply_effect registry).shelf_other hrole⟩
  · obtain ⟨name, hname, hkept⟩ := resolve_kept hmade
    have hfilled := registry.filled_resolve role (.named identifier)
    have hgenuine := ((Operation.resolve role (.named identifier)).apply_effect registry).genuine
      (genuine_after operations)
    obtain ⟨factory, hfactory, hmaker⟩ := hgenuine role name made hkept
    rw [show ((Operation.resolve role (.named identifier)).apply registry).value =
      (registry.resolve role (.named identifier)).registry from rfl, hfilled.factories] at hfactory
    exact ⟨name, factory, hname, latest_after hfactory, hmaker⟩
  · rw [← next_number_after]
    exact hcounted.ran number hran

end Registry

end Schemata
