import Mathlib.Data.List.Perm.Subperm
import Schemata.Proofs.Pipeline.Operations

/-!
# Chains of aliases

From a name the aliases of a role lead on to another name, and so on: the chain ends at a name that is
no alias, or it goes round for ever. `Walk` is the search along a chain, without any bound on its
length; each alias is followed once, so there are no more hops than aliases, `Walk.length_le`. The
main statement, `canonical_exact`, is that the search of a registry is such a walk, and that it finds
the end of the chain whenever there is one.
-/

namespace Schemata

namespace Registry

/-- The name that stands some number of aliases behind a name, if the chain is that long. -/
def behind? (aliases : Keyed String) : Nat → String → Option String
  | 0, name => some name
  | count + 1, name => (aliases.get? name).bind (behind? aliases count)

/-- The search along a chain of aliases: the names that were passed before, the name it stands at, the
aliases that it follows from there, and the name that it finds, if it does not come back to a name that
was passed. -/
inductive Walk (aliases : Keyed String) :
    List String → String → List (String × String) → Option String → Prop where
  | arrived {passed : List String} {name : String} (hname : aliases.get? name = none) :
      Walk aliases passed name [] (some name)
  | returned {passed : List String} {name target : String}
      (hname : aliases.get? name = some target) (hpassed : name ∈ passed) :
      Walk aliases passed name [] none
  | followed {passed : List String} {name target : String} {hops : List (String × String)}
      {found : Option String} (hname : aliases.get? name = some target) (hnew : name ∉ passed)
      (hrest : Walk aliases (name :: passed) target hops found) :
      Walk aliases passed name ((name, target) :: hops) found

namespace Walk

variable {aliases : Keyed String} {passed : List String} {name : String}
  {hops : List (String × String)} {found : Option String}

theorem alias_of_mem (h : Walk aliases passed name hops found) :
    ∀ hop ∈ hops, aliases.get? hop.1 = some hop.2 := by
  induction h with
  | arrived | returned => simp
  | followed hname hnew hrest ih => exact List.forall_mem_cons.mpr ⟨hname, ih⟩

/-- No name is passed twice. -/
theorem passes_once (h : Walk aliases passed name hops found) :
    (hops.map (·.1)).Nodup ∧ ∀ hop ∈ hops, hop.1 ∉ passed := by
  induction h with
  | arrived | returned => simp
  | followed hname hnew hrest ih =>
      obtain ⟨hnodup, hfresh⟩ := ih
      refine ⟨List.nodup_cons.mpr ⟨?_, hnodup⟩, List.forall_mem_cons.mpr ⟨hnew, ?_⟩⟩
      · intro hmem
        obtain ⟨hop, hhop, heq⟩ := List.mem_map.mp hmem
        exact hfresh hop hhop (heq ▸ List.mem_cons_self)
      · intro hop hhop hpassed
        exact hfresh hop hhop (List.mem_cons_of_mem _ hpassed)

/-- There are no more hops than aliases. -/
theorem length_le (h : Walk aliases passed name hops found) : hops.length ≤ aliases.size := by
  have hsub : hops.map (·.1) ⊆ aliases.keys := by
    intro key hkey
    obtain ⟨hop, hhop, rfl⟩ := List.mem_map.mp hkey
    exact Keyed.mem_keys_iff.mpr (Option.isSome_of_eq_some (h.alias_of_mem hop hhop))
  have hlength := (List.subperm_of_subset h.passes_once.1 hsub).length_le
  simpa [Keyed.keys, Keyed.size] using hlength

/-- The hops are those of the chain, from its start and in its order. -/
theorem in_order (h : Walk aliases passed name hops found) :
    ∀ position (hposition : position < hops.length),
      behind? aliases position name = some hops[position].1 ∧
        behind? aliases (position + 1) name = some hops[position].2 := by
  induction h with
  | arrived | returned => simp
  | followed hname hnew hrest ih =>
      intro position hposition
      cases position with
      | zero => simp [behind?, hname]
      | succ before => simpa [behind?, hname] using ih before (Nat.lt_of_succ_lt_succ hposition)

/-- The name that is found ends the chain. -/
theorem ends (h : Walk aliases passed name hops found) {last : String} (hfound : found = some last) :
    behind? aliases hops.length name = some last ∧ aliases.get? last = none := by
  induction h with
  | arrived hname =>
      obtain rfl := Option.some.inj hfound
      exact ⟨rfl, hname⟩
  | returned => cases hfound
  | followed hname hnew hrest ih => simpa [behind?, hname] using ih hfound

/-- The walk leaves no name behind: each one that it stands at is passed or found. -/
theorem closed (h : Walk aliases passed name hops found) :
    ∀ place, place = name ∨ place ∈ hops.map (·.2) →
      place ∈ passed ∨ place ∈ hops.map (·.1) ∨ found = some place := by
  induction h with
  | arrived hname => simp
  | returned hname hpassed => simp [hpassed]
  | @followed passed name target hops found hname hnew hrest ih =>
      intro place hplace
      rcases hplace with rfl | hplace
      · exact .inr (.inl (by simp))
      · have hlater := ih place (by simpa using hplace)
        simp only [List.mem_cons, List.map_cons] at hlater ⊢
        grind

/-- Every name of the chain is passed or found by a walk from its start. -/
theorem behind_mem (h : Walk aliases [] name hops found) (count : Nat) {place last : String}
    (hplace : place ∈ hops.map (·.1) ∨ found = some place)
    (hlast : behind? aliases count place = some last) :
    last ∈ hops.map (·.1) ∨ found = some last := by
  induction count generalizing place with
  | zero =>
      obtain rfl := Option.some.inj hlast
      exact hplace
  | succ count ih =>
      obtain ⟨target, htarget, hrest⟩ := Option.bind_eq_some_iff.mp hlast
      rcases hplace with hplace | hplace
      · obtain ⟨hop, hhop, rfl⟩ := List.mem_map.mp hplace
        have hnext : hop.2 = target := Option.some.inj ((h.alias_of_mem hop hhop).symm.trans htarget)
        have hmem : target ∈ hops.map (·.2) := hnext ▸ List.mem_map_of_mem hhop
        rcases h.closed target (.inr hmem) with hnone | htargetPlace
        · cases hnone
        · exact ih htargetPlace hrest
      · rw [(h.ends hplace).2] at htarget
        cases htarget

theorem chain_mem (h : Walk aliases [] name hops found) {count : Nat} {last : String}
    (hlast : behind? aliases count name = some last) :
    last ∈ hops.map (·.1) ∨ found = some last := by
  rcases h.closed name (.inl rfl) with hnone | hname
  · cases hnone
  · exact h.behind_mem count hname hlast

/-- Every alias of the chain is followed. -/
theorem hop_mem (h : Walk aliases [] name hops found) {count : Nat} {last target : String}
    (hlast : behind? aliases count name = some last) (htarget : aliases.get? last = some target) :
    (last, target) ∈ hops := by
  rcases h.chain_mem hlast with hpassed | hfound
  · obtain ⟨hop, hhop, rfl⟩ := List.mem_map.mp hpassed
    have hnext : hop.2 = target := Option.some.inj ((h.alias_of_mem hop hhop).symm.trans htarget)
    exact hnext ▸ hhop
  · rw [(h.ends hfound).2] at htarget
    cases htarget

/-- The walk finds a name exactly when the chain ends there. -/
theorem found_eq_some_iff (h : Walk aliases [] name hops found) {last : String} :
    found = some last ↔
      (∃ count, behind? aliases count name = some last) ∧ aliases.get? last = none := by
  constructor
  · intro hfound
    exact ⟨⟨_, (h.ends hfound).1⟩, (h.ends hfound).2⟩
  · rintro ⟨⟨count, hlast⟩, hend⟩
    rcases h.chain_mem hlast with hpassed | hfound
    · obtain ⟨hop, hhop, rfl⟩ := List.mem_map.mp hpassed
      rw [h.alias_of_mem hop hhop] at hend
      cases hend
    · exact hfound

/-- The walk comes back exactly when the chain has no end. -/
theorem found_eq_none_iff (h : Walk aliases [] name hops found) :
    found = none ↔ ∀ count last, behind? aliases count name = some last →
      aliases.get? last ≠ none := by
  constructor
  · intro hnone count last hlast hend
    rw [h.found_eq_some_iff.mpr ⟨⟨count, hlast⟩, hend⟩] at hnone
    cases hnone
  · intro hendless
    cases hfound : found with
    | none => rfl
    | some last => exact absurd (h.ends hfound).2 (hendless _ last (h.ends hfound).1)

end Walk

/-- The entries for aliases that are followed. -/
def followingAll (role : Role) (hops : List (String × String)) : Journal :=
  hops.map fun hop => following role hop.1 hop.2

/-- The search of a registry is a walk: what it may pass never runs out before the aliases do. -/
theorem follow_walk (role : Role) {aliases : Keyed String} {fuel : Nat} {passed : List String}
    (name : String) (hnodup : passed.Nodup) (hpassed : passed ⊆ aliases.keys)
    (hfuel : aliases.size < fuel + passed.length) :
    ∃ hops found, Walk aliases passed name hops found ∧
      follow role aliases fuel passed name = (followingAll role hops, found) := by
  induction fuel generalizing passed name with
  | zero =>
      -- names that were passed are different aliases, so they cannot be more than there are
      have hlength := (List.subperm_of_subset hnodup hpassed).length_le
      have hsize : aliases.keys.length = aliases.size := by simp [Keyed.keys, Keyed.size]
      omega
  | succ fuel ih =>
      cases htarget : aliases.get? name with
      | none => exact ⟨[], some name, .arrived htarget, by simp [follow, htarget, followingAll]⟩
      | some target =>
          by_cases hname : name ∈ passed
          · exact ⟨[], none, .returned htarget hname, by simp [follow, htarget, hname, followingAll]⟩
          · have hkeys : name :: passed ⊆ aliases.keys :=
              List.cons_subset.mpr
                ⟨Keyed.mem_keys_iff.mpr (Option.isSome_of_eq_some htarget), hpassed⟩
            have hmore : aliases.size < fuel + (name :: passed).length := by
              simp only [List.length_cons]
              omega
            obtain ⟨hops, found, hwalk, hfollow⟩ :=
              ih target (List.nodup_cons.mpr ⟨hname, hnodup⟩) hkeys hmore
            refine ⟨(name, target) :: hops, found, .followed htarget hname hwalk, ?_⟩
            simp [follow, htarget, hname, hfollow, followingAll]

/-- What an identifier leads to is what the walk from its full name finds. -/
theorem canonical_walk (registry : Registry) (role : Role) {identifier : String}
    (h : Identifier.isWellFormed identifier = true) :
    ∃ hops found, Walk (registry.shelf role).aliases [] (role.qualify identifier) hops found ∧
      registry.canonical role identifier =
        (followingAll role hops, found.elim (.error .cycle) .ok) := by
  have hfull : role.fullName? identifier = some (role.qualify identifier) := by
    simp [Role.fullName?, h]
  obtain ⟨hops, found, hwalk, hfollow⟩ := follow_walk role (role.qualify identifier)
    List.nodup_nil (List.nil_subset (registry.shelf role).aliases.keys) (Nat.lt_succ_self _)
  refine ⟨hops, found, hwalk, ?_⟩
  simp only [canonical, hfull, hfollow]
  cases found <;> rfl

/-- The chain of aliases from the full name of an identifier comes to a name. A text that is no
identifier has no chain. -/
def LeadsTo (registry : Registry) (role : Role) (identifier name : String) : Prop :=
  ∃ full count, role.fullName? identifier = some full ∧
    behind? (registry.shelf role).aliases count full = some name

section Ends

variable {registry : Registry} {role : Role} {identifier name : String}

theorem canonical_malformed (h : Identifier.isWellFormed identifier = false) :
    registry.canonical role identifier = ([], .error .malformed) := by
  simp [canonical, Role.fullName?, h]

theorem leads_to_iff (h : Identifier.isWellFormed identifier = true) :
    registry.LeadsTo role identifier name ↔
      ∃ count, behind? (registry.shelf role).aliases count (role.qualify identifier) = some name := by
  simp [LeadsTo, Role.fullName?, h]

theorem LeadsTo.well_formed (h : registry.LeadsTo role identifier name) :
    Identifier.isWellFormed identifier = true := by
  obtain ⟨full, count, hfull, -⟩ := h
  cases hidentifier : Identifier.isWellFormed identifier with
  | true => rfl
  | false => simp [Role.fullName?, hidentifier] at hfull

theorem canonical_eq_malformed_iff :
    (registry.canonical role identifier).2 = .error .malformed ↔
      Identifier.isWellFormed identifier = false := by
  cases h : Identifier.isWellFormed identifier with
  | false => simp [canonical_malformed h]
  | true =>
      obtain ⟨hops, found, -, hanswer⟩ := canonical_walk registry role h
      cases found <;> simp [hanswer]

/-- An identifier stands for the name at which its chain ends. -/
theorem canonical_eq_ok_iff :
    (registry.canonical role identifier).2 = .ok name ↔
      registry.LeadsTo role identifier name ∧ (registry.shelf role).aliases.get? name = none := by
  cases h : Identifier.isWellFormed identifier with
  | false =>
      have hnever : ¬registry.LeadsTo role identifier name := fun hleads => by
        rw [hleads.well_formed] at h
        cases h
      simp [canonical_malformed h, hnever]
  | true =>
      obtain ⟨hops, found, hwalk, hanswer⟩ := canonical_walk registry role h
      rw [leads_to_iff h, ← hwalk.found_eq_some_iff, hanswer]
      cases found <;> simp

/-- An identifier is refused for a cycle when its chain has no end. -/
theorem canonical_eq_cycle_iff :
    (registry.canonical role identifier).2 = .error .cycle ↔
      Identifier.isWellFormed identifier = true ∧ ∀ name, registry.LeadsTo role identifier name →
        (registry.shelf role).aliases.get? name ≠ none := by
  cases h : Identifier.isWellFormed identifier with
  | false => simp [canonical_malformed h]
  | true =>
      obtain ⟨hops, found, hwalk, hanswer⟩ := canonical_walk registry role h
      have hendless : (∀ name, registry.LeadsTo role identifier name →
          (registry.shelf role).aliases.get? name ≠ none) ↔ found = none := by
        rw [hwalk.found_eq_none_iff]
        simp only [leads_to_iff h, forall_exists_index]
        exact forall_comm
      rw [hendless, hanswer]
      cases found <;> simp

theorem canonical_ne_unregistered :
    (registry.canonical role identifier).2 ≠ .error (.unregistered name) := by
  cases h : Identifier.isWellFormed identifier with
  | false => simp [canonical_malformed h]
  | true =>
      obtain ⟨hops, found, -, hanswer⟩ := canonical_walk registry role h
      cases found <;> simp [hanswer]

end Ends

/-- The search along the aliases of a role is a walk of the chain from the full name of an identifier.
It follows every alias of the chain once, in the order of the chain, so it makes no more hops than the
role has aliases, and the journal names these hops. It finds a name exactly when the chain reaches this
name and it is no alias, and it is refused for a cycle exactly when the chain reaches no such name. -/
theorem canonical_exact (registry : Registry) (role : Role) (identifier : String)
    (h : Identifier.isWellFormed identifier = true) :
    let aliases := (registry.shelf role).aliases
    let start := role.qualify identifier
    let answer := registry.canonical role identifier
    (∃ hops found, Walk aliases [] start hops found ∧
      hops.length ≤ (registry.aliases role).length ∧ (hops.map (·.1)).Nodup ∧
      (∀ position (hposition : position < hops.length),
        behind? aliases position start = some hops[position].1 ∧
          behind? aliases (position + 1) start = some hops[position].2) ∧
      (∀ count name target, behind? aliases count start = some name →
        aliases.get? name = some target → (name, target) ∈ hops) ∧
      answer.1 = hops.map fun hop => following role hop.1 hop.2) ∧
    (∀ name, answer.2 = .ok name ↔
      (∃ count, behind? aliases count start = some name) ∧ aliases.get? name = none) ∧
    (answer.2.mapError (Unresolved.error role identifier) =
        .error (.configuration role identifier "alias cycle") ↔
      ∀ count name, behind? aliases count start = some name → aliases.get? name ≠ none) := by
  intro aliases start answer
  obtain ⟨hops, found, hwalk, hanswer⟩ := canonical_walk registry role h
  have hanswer : answer = (followingAll role hops, found.elim (.error .cycle) .ok) := hanswer
  rw [hanswer]
  refine ⟨⟨hops, found, hwalk, hwalk.length_le, hwalk.passes_once.1, hwalk.in_order,
    fun count name target => hwalk.hop_mem, rfl⟩, fun name => ?_, ?_⟩
  · rw [← hwalk.found_eq_some_iff]
    cases found <;> simp
  · rw [← hwalk.found_eq_none_iff]
    cases found with
    | none => exact iff_of_true rfl rfl
    | some name => exact iff_of_false (fun h => nomatch h) (fun h => nomatch h)

/-- A chain that goes round without coming back to its start has no end. -/
theorem canonical_exact_round :
    let registry := empty.after
      [.registerAlias .parser "a" "b", .registerAlias .parser "b" "c",
        .registerAlias .parser "c" "b"]
    Identifier.isWellFormed "a" = true ∧
      (registry.canonical .parser "a").1.length = 3 ∧
      ∀ count name, behind? registry.parsers.aliases count "sqlt::parser::a" = some name →
        registry.parsers.aliases.get? name ≠ none := by
  intro registry
  have hname : Identifier.isWellFormed "a" = true := by decide
  have hcycle : registry.canonical .parser "a" =
      ([following .parser "sqlt::parser::a" "sqlt::parser::b",
        following .parser "sqlt::parser::b" "sqlt::parser::c",
        following .parser "sqlt::parser::c" "sqlt::parser::b"], .error .cycle) := by
    rfl
  obtain ⟨-, -, hendless⟩ := canonical_exact registry .parser "a" hname
  refine ⟨hname, by rw [hcycle]; rfl, hendless.mp ?_⟩
  rw [hcycle]
  rfl

end Registry

end Schemata
