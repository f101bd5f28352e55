import Schemata.Document.Value
import Schemata.Pipeline.Keyed
import Schemata.Text.Outline

/-!
# Options

Options are texts under keys that travel to the plugins. The last value written to a key is the one
that is read.
-/

namespace Schemata

/-- Texts under keys. -/
structure Options where
  values : Keyed String := .empty

/-- The option that selects which nodes of a class model are admitted. -/
def visibilityKey : String := "visibility"

namespace Options

/-- No options. -/
def empty : Options := {}

/-- The value of a key. -/
def get? (options : Options) (key : String) : Option String :=
  options.values.get? key

/-- Put a value under a key, in place of an earlier one. -/
def set (options : Options) (key value : String) : Options :=
  { values := options.values.set key value }

/-- Put in pairs one after the other. -/
def setAll (options : Options) (pairs : List (String × String)) : Options :=
  pairs.foldl (fun filled pair => filled.set pair.1 pair.2) options

/-- The options of a list of pairs, of which the last one for a key counts. -/
def ofPairs (pairs : List (String × String)) : Options :=
  empty.setAll pairs

/-- The keys and their values in ascending order of the keys. -/
def pairs (options : Options) : List (String × String) :=
  options.values.entries

/-- Put every entry of `other` over the options. -/
def merge (options other : Options) : Options :=
  options.setAll other.pairs

/-- Whether there are no options. -/
def isEmpty (options : Options) : Bool :=
  options.pairs.isEmpty

/-- The visibility that is asked for. -/
def visibility? (options : Options) : Option String :=
  options.get? visibilityKey

/-- The options as a document shows them. -/
def document (options : Options) : Value :=
  .object (options.pairs.map fun entry => (entry.1, .text entry.2))

open Text (Outline)

/-- The options as a diagnostic shows them. -/
def outline (options : Options) : Outline :=
  .record "Options"
    [("values", .map (options.pairs.map fun entry => (.text entry.1, .text entry.2)))] true

@[simp] theorem get?_empty (key : String) : empty.get? key = none := rfl

/-- A key holds what was put under it last, and no other key changes. -/
theorem get?_set (options : Options) (key value k : String) :
    (options.set key value).get? k = if k = key then some value else options.get? k :=
  Keyed.get?_set options.values key value k

/-- The last value that a list of pairs has for a key. -/
def lastValue? (pairs : List (String × String)) (key : String) : Option String :=
  (pairs.reverse.find? (·.1 == key)).map (·.2)

theorem lastValue?_cons (pair : String × String) (rest : List (String × String)) (key : String) :
    lastValue? (pair :: rest) key =
      (lastValue? rest key).or (if key = pair.1 then some pair.2 else none) := by
  unfold lastValue?
  rw [List.reverse_cons, List.find?_append]
  by_cases hkey : key = pair.1
  · cases rest.reverse.find? (·.1 == key) <;> simp [hkey]
  · cases rest.reverse.find? (·.1 == key) <;> simp [hkey, Ne.symm hkey]

/-- A key holds the last value that was put in for it. -/
theorem get?_setAll (options : Options) (pairs : List (String × String)) (key : String) :
    (options.setAll pairs).get? key = (lastValue? pairs key).or (options.get? key) := by
  induction pairs generalizing options with
  | nil => rfl
  | cons pair rest ih =>
    have hset : (options.setAll (pair :: rest)).get? key =
        ((options.set pair.1 pair.2).setAll rest).get? key := rfl
    rw [hset, ih, get?_set, lastValue?_cons, Option.or_assoc]
    split <;> rfl

/-- Under distinct keys the last value of a key is its only one. -/
theorem lastValue?_ordered {pairs : List (String × String)}
    (h : pairs.Pairwise (fun a b => a.1 < b.1)) (key : String) :
    lastValue? pairs key = (pairs.find? (·.1 == key)).map (·.2) := by
  induction pairs with
  | nil => rfl
  | cons pair rest ih =>
    obtain ⟨hfirst, hrest⟩ := List.pairwise_cons.1 h
    rw [lastValue?_cons, ih hrest]
    by_cases hkey : key = pair.1
    · have hnone : rest.find? (·.1 == key) = none :=
        List.find?_eq_none.2 fun other hother hsame =>
          absurd (hfirst other hother) (by simp [beq_iff_eq.1 hsame, hkey])
      subst hkey
      simp [hnone]
    · simp [hkey, Ne.symm hkey]

/-- What is put over options is read first. -/
theorem get?_merge (options other : Options) (key : String) :
    (options.merge other).get? key = (other.get? key).or (options.get? key) := by
  rw [merge, get?_setAll, @lastValue?_ordered other.pairs other.values.ordered]
  rfl

end Options

end Schemata
