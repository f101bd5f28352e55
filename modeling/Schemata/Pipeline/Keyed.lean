/-!
# Values under keys

A list of values under distinct keys, in ascending order of the keys. `get?_set` and `get?_erase` say
what each change does to the values, and `ext_get?` that these determine the list.
-/

namespace Schemata

/-- Values under keys in ascending order. -/
structure Keyed (α : Type) where
  entries : List (String × α) := []
  ordered : entries.Pairwise (fun a b => a.1 < b.1) := by exact .nil

namespace Keyed

variable {α : Type}

/-- Put a value under a key, in place of an earlier one. -/
def insertEntry (key : String) (value : α) : List (String × α) → List (String × α)
  | [] => [(key, value)]
  | entry :: rest =>
    if key < entry.1 then (key, value) :: entry :: rest
    else if key = entry.1 then (key, value) :: rest
    else entry :: insertEntry key value rest

/-- The keys after a value was put in are the key and those before. -/
theorem mem_keys_insertEntry {key k : String} {value : α} {entries : List (String × α)} :
    k ∈ (insertEntry key value entries).map (·.1) ↔ k = key ∨ k ∈ entries.map (·.1) := by
  induction entries with
  | nil => simp [insertEntry]
  | cons entry rest ih =>
    unfold insertEntry
    split
    · simp
    · split
      · rename_i h
        simp [h]
      · simp only [List.map_cons, List.mem_cons, ih]
        constructor
        · rintro (h | h | h) <;> simp [h]
        · rintro (h | h | h) <;> simp [h]

/-- Of two different keys, one that is not smaller is larger. -/
theorem lt_of_not_lt_of_ne {a b : String} (hlt : ¬a < b) (hne : a ≠ b) : b < a := by
  rcases String.le_total b a with hle | hle
  · exact String.not_le.1 fun hback => hne (String.le_antisymm hback hle)
  · exact absurd (String.not_le.1 fun hback => hne (String.le_antisymm hle hback)) hlt

/-- Putting a value in keeps the order of the keys. -/
theorem ordered_insertEntry {key : String} {value : α} {entries : List (String × α)}
    (h : entries.Pairwise (fun a b => a.1 < b.1)) :
    (insertEntry key value entries).Pairwise (fun a b => a.1 < b.1) := by
  induction entries with
  | nil => simp [insertEntry]
  | cons entry rest ih =>
    obtain ⟨hfirst, hrest⟩ := List.pairwise_cons.1 h
    unfold insertEntry
    split
    · rename_i hlt
      refine List.pairwise_cons.2 ⟨fun other hother => ?_, h⟩
      rcases List.mem_cons.1 hother with rfl | hmem
      · exact hlt
      · exact String.lt_trans hlt (hfirst other hmem)
    · rename_i hnot
      split
      · rename_i heq
        refine List.pairwise_cons.2 ⟨fun other hother => ?_, hrest⟩
        simpa [heq] using hfirst other hother
      · rename_i hne
        refine List.pairwise_cons.2 ⟨fun other hother => ?_, ih hrest⟩
        have hkey : other.1 ∈ (insertEntry key value rest).map (·.1) :=
          List.mem_map_of_mem hother
        rcases mem_keys_insertEntry.1 hkey with heq | hmem
        · rw [heq]
          exact lt_of_not_lt_of_ne hnot hne
        · obtain ⟨found, hfound, hname⟩ := List.mem_map.1 hmem
          rw [← hname]
          exact hfirst found hfound

/-- Nothing under any key. -/
def empty : Keyed α := {}

/-- The value under a key. -/
def get? (keyed : Keyed α) (key : String) : Option α :=
  (keyed.entries.find? (·.1 == key)).map (·.2)

/-- Whether there is a value under a key. -/
def contains (keyed : Keyed α) (key : String) : Bool :=
  (keyed.get? key).isSome

/-- Put a value under a key, in place of an earlier one. -/
def set (keyed : Keyed α) (key : String) (value : α) : Keyed α :=
  { entries := insertEntry key value keyed.entries
    ordered := ordered_insertEntry keyed.ordered }

/-- Take away the value under a key. -/
def erase (keyed : Keyed α) (key : String) : Keyed α :=
  { entries := keyed.entries.filter (·.1 != key)
    ordered := keyed.ordered.sublist List.filter_sublist }

/-- The keys in ascending order. -/
def keys (keyed : Keyed α) : List String :=
  keyed.entries.map (·.1)

/-- How many keys have a value. -/
def size (keyed : Keyed α) : Nat :=
  keyed.entries.length

@[simp] theorem get?_empty (key : String) : (empty : Keyed α).get? key = none := rfl

/-- The entry of a key after a value was put in. -/
theorem find?_insertEntry (key k : String) (value : α) (entries : List (String × α)) :
    ((insertEntry key value entries).find? (·.1 == k)).map (·.2) =
      if k = key then some value else (entries.find? (·.1 == k)).map (·.2) := by
  induction entries with
  | nil => grind [insertEntry]
  | cons entry rest ih => grind [insertEntry]

/-- A key holds what was put under it last, and no other key changes. -/
theorem get?_set (keyed : Keyed α) (key : String) (value : α) (k : String) :
    (keyed.set key value).get? k = if k = key then some value else keyed.get? k :=
  find?_insertEntry key k value keyed.entries

/-- The entry of a key after the entries of one key were taken away. -/
theorem find?_filter_ne (key k : String) (entries : List (String × α)) :
    ((entries.filter (·.1 != key)).find? (·.1 == k)).map (·.2) =
      if k = key then none else (entries.find? (·.1 == k)).map (·.2) := by
  induction entries with
  | nil => simp
  | cons entry rest ih => grind

/-- The key that was taken away holds nothing, and no other key changes. -/
theorem get?_erase (keyed : Keyed α) (key k : String) :
    (keyed.erase key).get? k = if k = key then none else keyed.get? k :=
  find?_filter_ne key k keyed.entries

/-- The keys are those with a value. -/
theorem mem_keys_iff {keyed : Keyed α} {key : String} :
    key ∈ keyed.keys ↔ (keyed.get? key).isSome = true := by
  simp [keys, get?]

theorem pairwise_keys (keyed : Keyed α) : keyed.keys.Pairwise (· < ·) :=
  List.pairwise_map.mpr keyed.ordered

/-- An entry is the one that was put in, or was there before. -/
theorem mem_insertEntry {entry : String × α} {key : String} {value : α}
    {entries : List (String × α)} (h : entry ∈ insertEntry key value entries) :
    entry = (key, value) ∨ entry ∈ entries := by
  induction entries with
  | nil => exact .inl (List.mem_singleton.mp h)
  | cons first rest ih => grind [insertEntry]

/-- A value under a key larger than another is not under the other. -/
theorem find?_eq_none_of_lt {key : String} {entries : List (String × α)}
    (h : ∀ entry ∈ entries, key < entry.1) : entries.find? (·.1 == key) = none :=
  List.find?_eq_none.2 fun entry hentry hsame =>
    absurd (h entry hentry) (by simp [beq_iff_eq.1 hsame])

/-- Lists in ascending order that have the same value under every key are equal. -/
theorem entries_ext {entries others : List (String × α)}
    (hentries : entries.Pairwise (fun a b => a.1 < b.1))
    (hothers : others.Pairwise (fun a b => a.1 < b.1))
    (h : ∀ key, (entries.find? (·.1 == key)).map (·.2) = (others.find? (·.1 == key)).map (·.2)) :
    entries = others := by
  induction entries generalizing others with
  | nil =>
    cases others with
    | nil => rfl
    | cons other rest => simpa using h other.1
  | cons entry entries ih =>
    cases others with
    | nil => simpa using h entry.1
    | cons other others =>
      obtain ⟨hfirst, hrest⟩ := List.pairwise_cons.1 hentries
      obtain ⟨hotherFirst, hotherRest⟩ := List.pairwise_cons.1 hothers
      -- the smallest keys are the same, since each is found on the other side
      have hkey : entry.1 = other.1 := Decidable.by_contra fun hne => by
        have hmissing {a b : String × α} {bs : List (String × α)} (hlt : a.1 < b.1)
            (hb : ∀ other ∈ bs, b.1 < other.1) : (b :: bs).find? (·.1 == a.1) = none :=
          find?_eq_none_of_lt (List.forall_mem_cons.2
            ⟨hlt, fun other hother => String.lt_trans hlt (hb other hother)⟩)
        by_cases hlt : entry.1 < other.1
        · simpa [hmissing hlt hotherFirst] using h entry.1
        · simpa [hmissing (lt_of_not_lt_of_ne hlt hne) hfirst] using h other.1
      have hvalue : entry.2 = other.2 := by simpa [hkey] using h entry.1
      rw [Prod.ext hkey hvalue, ih hrest hotherRest]
      intro key
      by_cases hsame : key = entry.1
      · rw [hsame, find?_eq_none_of_lt hfirst, hkey, find?_eq_none_of_lt hotherFirst]
      · simpa [Ne.symm hsame, hkey ▸ Ne.symm hsame] using h key

/-- Values under keys are determined by what is under each key. -/
theorem ext_get? {keyed other : Keyed α} (h : ∀ key, keyed.get? key = other.get? key) :
    keyed = other := by
  cases keyed
  cases other
  congr
  exact entries_ext ‹_› ‹_› h

end Keyed

end Schemata
