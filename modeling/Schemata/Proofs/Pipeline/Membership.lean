import Schemata.Proofs.Pipeline.Aliases
import Schemata.Proofs.Pipeline.Identifiers

/-!
# Which identifiers lead to a plugin

Whether an identifier leads to a plugin is read off the factories, while asking for it looks at the
instances first. In registries that operations lead to, the two come to the same since every instance
has its factory, `Genuine.contains_eq`. The main statement, `contains_exact`, adds why an identifier
that leads to none is refused.
-/

namespace Schemata

namespace Unresolved

theorem message_unregistered (name : String) :
    (message (.unregistered name)).toList =
      "no plugin registered as '".toList ++ (name.toList ++ "'".toList) := by
  show ("no plugin registered as '" ++ name ++ "'").toList = _
  rw [String.toList_append, String.toList_append, List.append_assoc]

/-- Different reasons are told in different words. -/
theorem message_injective : Function.Injective message := by
  have hfirst (name : String) : (message (.unregistered name)).toList.head? = some 'n' := by
    have hstart : "no plugin registered as '".toList.head? = some 'n' := by decide
    rw [message_unregistered, List.head?_append, hstart]
    rfl
  have hapart {reason : Unresolved} {name : String}
      (hreason : reason.message.toList.head? ≠ some 'n')
      (h : reason.message = message (.unregistered name)) : False :=
    hreason (h ▸ hfirst name)
  intro reason other h
  cases reason with
  | malformed =>
      cases other with
      | malformed => rfl
      | cycle => exact absurd h (by decide)
      | unregistered name => exact (hapart (by decide) h).elim
  | cycle =>
      cases other with
      | malformed => exact absurd h (by decide)
      | cycle => rfl
      | unregistered name => exact (hapart (by decide) h).elim
  | unregistered name =>
      cases other with
      | malformed => exact (hapart (by decide) h.symm).elim
      | cycle => exact (hapart (by decide) h.symm).elim
      | unregistered key =>
          have hlists := congrArg String.toList h
          rw [message_unregistered, message_unregistered] at hlists
          have hnames := List.append_cancel_right (List.append_cancel_left hlists)
          rw [String.toList_inj.mp hnames]

end Unresolved

namespace Registry

variable {registry : Registry} {role : Role} {identifier : String}

/-- Where every instance has its factory, an instance is handed out exactly under the names of
factories. -/
theorem Genuine.handed_is_some (h : registry.Genuine) (name : String) :
    (registry.handed? role name).isSome = (registry.shelf role).factories.contains name := by
  rw [handed?, Keyed.contains]
  cases hloaded : (registry.shelf role).loaded.get? name with
  | none => simp
  | some made =>
      obtain ⟨factory, hfactory, -⟩ := h role name made hloaded
      simp [hfactory]

theorem Genuine.contains_eq (h : registry.Genuine) :
    registry.contains role identifier =
      (registry.resolve role (.named identifier)).result.isOk := by
  rw [contains, resolve_named]
  rcases (registry.canonical role identifier).2 with reason | name
  · rfl
  · simp only [← h.handed_is_some]
    cases registry.handed? role name <;> rfl

/-- An identifier is refused for what is wrong with it, or for the name that it leads to. -/
theorem resolve_eq_error {reason : PipelineError}
    (h : (registry.resolve role (.named identifier)).result = .error reason) :
    ∃ why : Unresolved, reason = why.error role identifier ∧
      (why = .malformed ↔ (registry.canonical role identifier).2 = .error .malformed) ∧
      (why = .cycle ↔ (registry.canonical role identifier).2 = .error .cycle) ∧
      ∀ name, why = .unregistered name ↔ (registry.canonical role identifier).2 = .ok name := by
  rw [resolve_named] at h
  rcases hcanonical : (registry.canonical role identifier).2 with why | name
  · rw [hcanonical] at h
    have hnever : ∀ name, why ≠ .unregistered name := by
      rintro name rfl
      exact canonical_ne_unregistered hcanonical
    exact ⟨why, (Except.error.inj h).symm, by simp, by simp, by simpa using hnever⟩
  · simp only [hcanonical] at h
    cases hhanded : registry.handed? role name with
    | none =>
        simp only [hhanded] at h
        exact ⟨.unregistered name, (Except.error.inj h).symm, by simp, by simp, by simp⟩
    | some made => simp [hhanded] at h

/-- In every registry that operations lead to, an identifier leads to a plugin exactly when asking for
it succeeds. Otherwise asking is refused and changes nothing. The refusal names the role and the
identifier that were asked for. It calls the identifier malformed exactly when it is no row of words,
tells of a cycle exactly when its chain of aliases has no end, and else that there is no plugin under
the name at which the chain ends. -/
theorem contains_exact (operations : List Operation) (role : Role) (identifier : String) :
    let registry := empty.after operations
    let aliases := (registry.shelf role).aliases
    let answer := registry.resolve role (.named identifier)
    (registry.contains role identifier = true ↔ ∃ made, answer.result = .ok made) ∧
      (registry.contains role identifier = false →
        answer.registry = registry ∧ ∃ message,
          answer.result = .error (.configuration role identifier message) ∧
          (message = "malformed plugin identifier" ↔ ¬Identifier.Row identifier.toList) ∧
          (message = "alias cycle" ↔ Identifier.Row identifier.toList ∧
            ∀ name, registry.LeadsTo role identifier name → aliases.get? name ≠ none) ∧
          ∀ name, message = "no plugin registered as '" ++ name ++ "'" ↔
            registry.LeadsTo role identifier name ∧ aliases.get? name = none) := by
  intro registry aliases answer
  have hcontains : registry.contains role identifier = answer.result.isOk :=
    (genuine_after operations).contains_eq
  rw [hcontains]
  cases hresult : answer.result with
  | ok made => simp [Except.isOk, Except.toBool]
  | error reason =>
      refine ⟨by simp [Except.isOk, Except.toBool], fun _ => ⟨resolve_refused hresult, ?_⟩⟩
      obtain ⟨why, rfl, hmalformed, hcycle, hunregistered⟩ := resolve_eq_error hresult
      have htold (other : Unresolved) : why.message = other.message ↔ why = other :=
        Unresolved.message_injective.eq_iff
      refine ⟨why.message, rfl, (htold .malformed).trans ?_, (htold .cycle).trans ?_,
        fun name => (htold (.unregistered name)).trans ?_⟩
      · rw [hmalformed, canonical_eq_malformed_iff, ← Identifier.is_well_formed_iff,
          Bool.not_eq_true]
      · rw [hcycle, canonical_eq_cycle_iff, Identifier.is_well_formed_iff]
      · rw [hunregistered, canonical_eq_ok_iff]

end Registry

end Schemata
