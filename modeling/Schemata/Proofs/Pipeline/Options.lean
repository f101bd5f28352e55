import Schemata.Pipeline.Options

/-!
# Options over options

Options are determined by what they hold under each key, `ext_get?`. So options over none are these
options, and so are none over them. Of three layers it does not matter which two are put together
first. What a document lists of options makes up the same options again.
-/

namespace Schemata.Options

theorem ext_get? {options other : Options} (h : ∀ key, options.get? key = other.get? key) :
    options = other := by
  cases options
  cases other
  congr
  exact Keyed.ext_get? h

@[simp] theorem merge_empty (options : Options) : options.merge {} = options := rfl

@[simp] theorem empty_merge (options : Options) : Options.merge {} options = options := by
  refine ext_get? fun key => ?_
  rw [get?_merge]
  exact Option.or_none

theorem merge_assoc (first second third : Options) :
    (first.merge second).merge third = first.merge (second.merge third) := by
  refine ext_get? fun key => ?_
  simp only [get?_merge, Option.or_assoc]

@[simp] theorem of_pairs_pairs (options : Options) : ofPairs options.pairs = options :=
  empty_merge options

theorem is_empty_iff {options : Options} : options.isEmpty = true ↔ options = {} := by
  constructor
  · intro h
    rw [← of_pairs_pairs options, List.isEmpty_iff.mp h]
    rfl
  · rintro rfl
    rfl

end Schemata.Options
