import Schemata.Proofs.Pipeline.Aliases
import Schemata.Proofs.Pipeline.Instances

/-!
# What a new alias changes

A new alias turns one edge of the chains of its role. Chains that do not come to the alias are walked
as before, `Walk.redirect`, and the alias itself ends where its target ends, `Walk.found_eq`. The main
statement, `new_alias_exact`, is what this means for those who ask: the alias and its target are
answered alike, and everyone else as before.
-/

namespace Schemata

namespace Registry

namespace Walk

variable {aliases : Keyed String} {passed : List String} {name : String}
  {hops otherHops : List (String × String)} {found other : Option String}

/-- There is one walk from a name. -/
theorem unique (h : Walk aliases passed name hops found)
    (hother : Walk aliases passed name otherHops other) : hops = otherHops ∧ found = other := by
  induction h generalizing otherHops other with
  | arrived hname =>
      cases hother with
      | arrived => exact ⟨rfl, rfl⟩
      | returned hsome | followed hsome => cases hname.symm.trans hsome
  | returned hname hpassed =>
      cases hother with
      | arrived hnone => cases hname.symm.trans hnone
      | returned => exact ⟨rfl, rfl⟩
      | followed hsome hnew => exact absurd hpassed hnew
  | followed hname hnew hrest ih =>
      cases hother with
      | arrived hnone => cases hname.symm.trans hnone
      | returned hsome hpassed => exact absurd hpassed hnew
      | followed hsome _ hotherRest =>
          obtain rfl := Option.some.inj (hname.symm.trans hsome)
          obtain ⟨rfl, rfl⟩ := ih hotherRest
          exact ⟨rfl, rfl⟩

/-- A walk that does not come to a name is not changed by what the name leads to. -/
theorem redirect {key target : String} (h : Walk aliases passed name hops found)
    (havoids : ∀ count, behind? aliases count name ≠ some key) :
    Walk (aliases.set key target) passed name hops found := by
  have hkept {name : String} (hne : name ≠ key) :
      (aliases.set key target).get? name = aliases.get? name := by
    rw [Keyed.get?_set, if_neg hne]
  have hstart {name : String} (havoids : ∀ count, behind? aliases count name ≠ some key) :
      name ≠ key := fun heq => havoids 0 (congrArg some heq)
  induction h with
  | arrived hname => exact .arrived ((hkept (hstart havoids)).trans hname)
  | returned hname hpassed => exact .returned ((hkept (hstart havoids)).trans hname) hpassed
  | followed hname hnew hrest ih =>
      refine .followed ((hkept (hstart havoids)).trans hname) hnew (ih fun count hcount => ?_)
      exact havoids (count + 1) (by simpa [behind?, hname] using hcount)

/-- An alias ends where the name ends that it leads to, or both have no end. -/
theorem found_eq {target : String} (h : Walk aliases [] name hops found)
    (hother : Walk aliases [] target otherHops other) (hname : aliases.get? name = some target) :
    found = other := by
  refine Option.ext fun last => ?_
  rw [h.found_eq_some_iff, hother.found_eq_some_iff]
  refine and_congr_left fun hend => ⟨?_, ?_⟩
  · rintro ⟨count, hlast⟩
    cases count with
    | zero =>
        -- the alias is not an end itself
        obtain rfl := Option.some.inj hlast
        cases hname.symm.trans hend
    | succ count => exact ⟨count, by simpa [behind?, hname] using hlast⟩
  · rintro ⟨count, hlast⟩
    exact ⟨count + 1, by simpa [behind?, hname] using hlast⟩

end Walk

/-- What an identifier leads to depends on the aliases of its role only. -/
theorem canonical_congr {registry other : Registry} {role : Role}
    (h : (other.shelf role).aliases = (registry.shelf role).aliases) (identifier : String) :
    other.canonical role identifier = registry.canonical role identifier := by
  unfold canonical
  rw [h]

/-- Answers to two identifiers that come to the same: one instance, or refusals for one reason, each
of which names the identifier that was asked for. -/
inductive SameAnswer (role : Role) (first second : String) :
    Except PipelineError (Instance (Plugin role)) → Except PipelineError (Instance (Plugin role)) →
      Prop where
  | found (made : Instance (Plugin role)) : SameAnswer role first second (.ok made) (.ok made)
  | cycle : SameAnswer role first second (.error (.configuration role first "alias cycle"))
      (.error (.configuration role second "alias cycle"))
  | unregistered (name : String) :
      SameAnswer role first second
        (.error (.configuration role first ("no plugin registered as '" ++ name ++ "'")))
        (.error (.configuration role second ("no plugin registered as '" ++ name ++ "'")))

section Answers

variable {registry : Registry} {role : Role} {first second : String}

/-- Identifiers that lead to the same are answered alike. -/
theorem same_answer (hfirst : Identifier.isWellFormed first = true)
    (h : (registry.canonical role first).2 = (registry.canonical role second).2) :
    SameAnswer role first second (registry.resolve role (.named first)).result
      (registry.resolve role (.named second)).result := by
  rw [resolve_named, resolve_named, ← h]
  rcases hcanonical : (registry.canonical role first).2 with reason | name
  · cases reason with
    | malformed => simp [canonical_eq_malformed_iff.mp hcanonical] at hfirst
    | cycle => exact .cycle
    | unregistered name => exact absurd hcanonical canonical_ne_unregistered
  · dsimp only
    cases registry.handed? role name with
    | none => exact .unregistered name
    | some made => exact .found made

/-- The second of two identifiers that lead to the same finds what was made for the first. -/
theorem same_answer_after (hfirst : Identifier.isWellFormed first = true)
    (h : (registry.canonical role first).2 = (registry.canonical role second).2) :
    SameAnswer role first second (registry.resolve role (.named first)).result
      ((registry.resolve role (.named first)).registry.resolve role (.named second)).result := by
  cases hresult : (registry.resolve role (.named first)).result with
  | error reason =>
      rw [resolve_refused hresult, ← hresult]
      exact same_answer hfirst h
  | ok made =>
      obtain ⟨name, hname, hkept⟩ := resolve_kept hresult
      have hfilled := registry.filled_resolve role (.named first)
      have hsecond : ((registry.resolve role (.named first)).registry.canonical role second).2 =
          .ok name := by
        rw [hfilled.canonical_eq, ← h, hname]
      rw [hkept.resolve_eq hsecond]
      exact .found made

end Answers

section NewAlias

variable {registry : Registry} {role other : Role} {name target key : String}

/-- Instances are made and kept as before. -/
theorem load_with_alias :
    (registry.withAlias role name target).load other key =
      ((registry.load other key).1.withAlias role name target, (registry.load other key).2) := by
  have hshelf : ((registry.withAlias role name target).shelf other).loaded =
        (registry.shelf other).loaded ∧
      ((registry.withAlias role name target).shelf other).factories =
        (registry.shelf other).factories := by
    cases role <;> cases other <;> exact ⟨rfl, rfl⟩
  unfold load
  dsimp only
  rw [hshelf.1, hshelf.2]
  cases (registry.shelf other).loaded.get? key with
  | some made => rfl
  | none =>
      cases (registry.shelf other).factories.get? key with
      | none => rfl
      | some factory => cases role <;> cases other <;> rfl

/-- A change of a registry does not affect an identifier: it is answered as before, and it does not
matter whether it is asked for before the change or after it. -/
structure Unaffected (registry : Registry) (change : Registry → Registry) (other : Role)
    (identifier : String) : Prop where
  result : ((change registry).resolve other (.named identifier)).result =
    (registry.resolve other (.named identifier)).result
  journal : ((change registry).resolve other (.named identifier)).journal =
    (registry.resolve other (.named identifier)).journal
  left : ((change registry).resolve other (.named identifier)).registry =
    change (registry.resolve other (.named identifier)).registry

/-- An identifier that leads to the same as before a new alias is not affected by it. -/
theorem unaffected {identifier : String}
    (h : (registry.withAlias role name target).canonical other identifier =
      registry.canonical other identifier) :
    registry.Unaffected (·.withAlias role name target) other identifier := by
  rcases hcanonical : registry.canonical other identifier with ⟨journal, reason | key⟩
  · rw [hcanonical] at h
    constructor <;> simp only [resolve, resolveName, hcanonical, h]
  · have hload := @load_with_alias registry role other name target key
    rw [hcanonical] at h
    rcases hloaded : registry.load other key with ⟨after, loading, reason | made⟩ <;>
      rw [hloaded] at hload <;>
      constructor <;> simp only [resolve, resolveName, hcanonical, h, hload, hloaded]

/-- A chain that does not come to the alias is searched as before. -/
theorem canonical_with_alias {identifier : String} (h : ¬registry.LeadsTo role identifier name) :
    (registry.withAlias role name target).canonical role identifier =
      registry.canonical role identifier := by
  cases hidentifier : Identifier.isWellFormed identifier with
  | false => rw [canonical_malformed hidentifier, canonical_malformed hidentifier]
  | true =>
      obtain ⟨hops, found, hwalk, hanswer⟩ := canonical_walk registry role hidentifier
      obtain ⟨otherHops, otherFound, hother, hotherAnswer⟩ :=
        canonical_walk (registry.withAlias role name target) role hidentifier
      rw [shelf_with_alias] at hother
      have havoids : ∀ count, behind? (registry.shelf role).aliases count
          (role.qualify identifier) ≠ some name :=
        fun count hcount => h ((leads_to_iff hidentifier).mpr ⟨count, hcount⟩)
      obtain ⟨rfl, rfl⟩ := hother.unique (hwalk.redirect havoids)
      rw [hanswer, hotherAnswer]

/-- An alias leads to what its target leads to. -/
theorem canonical_of_alias (hname : Identifier.isWellFormed name = true)
    (htarget : Identifier.isWellFormed target = true)
    (halias : (registry.shelf role).aliases.get? (role.qualify name) = some (role.qualify target)) :
    (registry.canonical role name).2 = (registry.canonical role target).2 := by
  obtain ⟨hops, found, hwalk, hanswer⟩ := canonical_walk registry role hname
  obtain ⟨otherHops, otherFound, hother, hotherAnswer⟩ := canonical_walk registry role htarget
  rw [hanswer, hotherAnswer, hwalk.found_eq hother halias]

theorem register_alias_eq (registry : Registry) (hname : Identifier.isWellFormed name = true)
    (htarget : Identifier.isWellFormed target = true) :
    (registry.registerAlias role name target).failure = none ∧
      (registry.registerAlias role name target).value =
        registry.withAlias role (role.qualify name) (role.qualify target) := by
  have hfull : role.fullName? name = some (role.qualify name) := by simp [Role.fullName?, hname]
  have hfullTarget : role.fullName? target = some (role.qualify target) := by
    simp [Role.fullName?, htarget]
  rw [registerAlias, hfull, hfullTarget]
  exact ⟨rfl, rfl⟩

end NewAlias

/-- A name can always be made to lead to another, whether it was a plugin, an alias or neither, and
whether or not this closes a cycle. From then on the two are answered alike, in whichever order they
are asked for: with one instance, or with refusals for one reason. An identifier whose chain did not
come to the name is answered as before, and so is every identifier of the other role. -/
theorem new_alias_exact (registry : Registry) (role : Role) (name target : String)
    (hname : Identifier.isWellFormed name = true)
    (htarget : Identifier.isWellFormed target = true) :
    let register := fun registry : Registry => (registry.registerAlias role name target).value
    (registry.registerAlias role name target).failure = none ∧
      SameAnswer role name target ((register registry).resolve role (.named name)).result
        ((register registry).resolve role (.named target)).result ∧
      (∀ first ∈ [name, target], ∀ second ∈ [name, target],
        let answer := (register registry).resolve role (.named first)
        SameAnswer role first second answer.result
          (answer.registry.resolve role (.named second)).result) ∧
      (∀ identifier, ¬registry.LeadsTo role identifier (role.qualify name) →
        registry.Unaffected register role identifier) ∧
      ∀ other identifier, other ≠ role → registry.Unaffected register other identifier := by
  intro register
  have hregister : register = (·.withAlias role (role.qualify name) (role.qualify target)) :=
    funext fun registry => (register_alias_eq registry hname htarget).2
  have hcanonical : ((register registry).canonical role name).2 =
      ((register registry).canonical role target).2 := by
    refine canonical_of_alias hname htarget ?_
    rw [hregister, shelf_with_alias, Keyed.get?_set, if_pos rfl]
  have hasked {first second : String} (hfirst : first ∈ [name, target])
      (hsecond : second ∈ [name, target]) : Identifier.isWellFormed first = true ∧
        ((register registry).canonical role first).2 =
          ((register registry).canonical role second).2 := by
    simp only [List.mem_cons, List.not_mem_nil, or_false] at hfirst hsecond
    rcases hfirst with rfl | rfl
    · rcases hsecond with rfl | rfl
      · exact ⟨hname, rfl⟩
      · exact ⟨hname, hcanonical⟩
    · rcases hsecond with rfl | rfl
      · exact ⟨htarget, hcanonical.symm⟩
      · exact ⟨htarget, rfl⟩
  refine ⟨(register_alias_eq registry hname htarget).1, same_answer hname hcanonical,
    fun first hfirst second hsecond => ?_, fun identifier havoids => ?_,
    fun other identifier hrole => ?_⟩
  · obtain ⟨hwellFormed, hsame⟩ := hasked hfirst hsecond
    exact same_answer_after hwellFormed hsame
  · rw [hregister]
    exact unaffected (canonical_with_alias havoids)
  · rw [hregister]
    refine unaffected (canonical_congr ?_ identifier)
    rw [shelf_with_alias_other hrole]

/-- A plugin that was in use becomes an alias: it is the other plugin from then on, and this one is
not affected. -/
theorem new_alias_exact_shadowing :
    let registry := empty.after
      [.register .parser "uml" identityParser, .register .parser "json" identityParser,
        .resolve .parser (.named "uml")]
    let register := fun registry : Registry => (registry.registerAlias .parser "uml" "json").value
    Identifier.isWellFormed "uml" = true ∧ Identifier.isWellFormed "json" = true ∧
      (registry.resolve .parser (.named "uml")).result =
        .ok { identity := 0, maker? := some 0, plugin := identityParser } ∧
      ((register registry).resolve .parser (.named "uml")).result =
        .ok { identity := 1, maker? := some 1, plugin := identityParser } ∧
      SameAnswer .parser "uml" "json" ((register registry).resolve .parser (.named "uml")).result
        ((register registry).resolve .parser (.named "json")).result ∧
      ¬registry.LeadsTo .parser "json" "sqlt::parser::uml" ∧
      registry.Unaffected register .parser "json" := by
  intro registry register
  have hname : Identifier.isWellFormed "uml" = true := by decide
  have htarget : Identifier.isWellFormed "json" = true := by decide
  have havoids : ¬registry.LeadsTo .parser "json" "sqlt::parser::uml" := by
    rintro ⟨full, count, hfull, hcount⟩
    obtain rfl : "sqlt::parser::json" = full := Option.some.inj hfull
    cases count with
    | zero => exact absurd (Option.some.inj hcount) (by decide)
    | succ count => cases hcount
  obtain ⟨-, hsame, -, hothers, -⟩ := new_alias_exact registry .parser "uml" "json" hname htarget
  exact ⟨hname, htarget, rfl, rfl, hsame, havoids, hothers "json" havoids⟩

end Registry

end Schemata
