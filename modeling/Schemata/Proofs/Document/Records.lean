import Schemata.Document.Decoder

/-!
# Fields that are not given

A record keeps what it starts with wherever no member of its object changes it, `members_keep`.
-/

namespace Schemata

variable {σ φ ρ α β : Type}

/-- Whether some key of an object is read as a name. -/
inductive HasKey (scope : Scope σ φ) (path : Path) (name : String) : Tree σ .members → Prop where
  | here {key value : Tree σ .value} {rest : Tree σ .members} {count after : Nat}
      (hkey : Decoder.textAs "field identifier" scope path key count = .ok (name, after)) :
      HasKey scope path name (.member key value rest)
  | later {key value : Tree σ .value} {rest : Tree σ .members}
      (hrest : HasKey scope path name rest) : HasKey scope path name (.member key value rest)

/-- A decoding in two steps succeeds when both do. -/
theorem Decoding.bind_eq_ok_iff {first : Decoding φ α} {next : α → Decoding φ β} {count : Nat}
    {result : β × Nat} :
    (first >>= next) count = .ok result ↔
      ∃ value middle, first count = .ok (value, middle) ∧ next value middle = .ok result := by
  show Except.bind (first count) (fun step => next step.1 step.2) = .ok result ↔ _
  cases first count with
  | error issue => simp [Except.bind]
  | ok step =>
      constructor
      · intro h
        exact ⟨step.1, step.2, rfl, h⟩
      · rintro ⟨value, middle, hstep, h⟩
        cases hstep
        exact h

@[simp] theorem FieldForm.or_named_read (form : FieldForm σ φ ρ) (key : String) :
    (form.orNamed key).read = form.read := rfl

@[simp] theorem FieldForm.needed_read (form : FieldForm σ φ ρ) : form.needed.read = form.read := rfl

@[simp] theorem FieldForm.of_name (name : String) (decode : Decoder σ φ α) (store : ρ → α → ρ) :
    (FieldForm.of name decode store).name = name := rfl

@[simp] theorem FieldForm.or_named_name (form : FieldForm σ φ ρ) (key : String) :
    (form.orNamed key).name = form.name := rfl

@[simp] theorem FieldForm.needed_name (form : FieldForm σ φ ρ) : form.needed.name = form.name := rfl

theorem FieldForm.of_read_eq_ok {name : String} {decode : Decoder σ φ α} {store : ρ → α → ρ}
    {record updated : ρ} {scope : Scope σ φ} {path : Path} {tree : Tree σ .value}
    {count after : Nat}
    (h : (FieldForm.of name decode store).read record scope path tree count =
      .ok (updated, after)) : ∃ value, updated = store record value := by
  have hmap : (FieldForm.of name decode store).read record scope path tree =
      decode scope path tree >>= fun value => pure (store record value) := map_eq_pure_bind _ _
  rw [hmap, Decoding.bind_eq_ok_iff] at h
  obtain ⟨value, middle, -, hpure⟩ := h
  cases hpure
  exact ⟨value, rfl⟩

namespace RecordForm

variable {form : RecordForm σ φ ρ} {scope : Scope σ φ} {path : Path}

theorem field_eq_some {key : String} {field : FieldForm σ φ ρ}
    (h : form.field? key = some field) : field ∈ form.fields ∧ field.answers key = true := by
  have hanswers := List.find?_some h
  exact ⟨List.mem_of_find?_eq_some h, hanswers⟩

/-- What no field of the given keys changes stays as it was. -/
theorem members_keep {all : Tree σ .members} (view : ρ → β)
    (hkeep : ∀ name field, HasKey scope path name all → form.field? name = some field →
      ∀ record place tree count updated after,
        field.read record scope place tree count = .ok (updated, after) →
          view updated = view record)
    {seen : List String} {record result : ρ} {count after : Nat}
    (h : form.members scope path seen record all count = .ok (result, after)) :
    view result = view record := by
  match all with
  | .noMembers =>
      rw [members, finish] at h
      cases hmissing : form.fields.find? fun field => field.required && !seen.contains field.name with
      | some field =>
          rw [hmissing] at h
          cases h
      | none =>
          rw [hmissing] at h
          cases h
          rfl
  | .member key value rest =>
      have hlater {name : String} (hname : HasKey scope path name rest) :
          HasKey scope path name (.member key value rest) := .later hname
      rw [members, Decoding.bind_eq_ok_iff] at h
      obtain ⟨name, middle, hkey, h⟩ := h
      cases hfield : form.field? name with
      | none =>
          simp only [hfield, Decoding.bind_eq_ok_iff] at h
          obtain ⟨-, later, -, hrest⟩ := h
          exact members_keep view (fun name field hname => hkeep name field (hlater hname)) hrest
      | some field =>
          simp only [hfield] at h
          split at h
          · cases h
          · obtain ⟨updated, later, hread, hrest⟩ := Decoding.bind_eq_ok_iff.1 h
            have hupdated := hkeep name field (.here hkey) hfield _ _ _ _ _ _ hread
            rw [← hupdated]
            exact members_keep view (fun name field hname => hkeep name field (hlater hname)) hrest

end RecordForm

end Schemata
