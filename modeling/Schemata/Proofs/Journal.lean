import Schemata.Journal

/-!
# Outcomes of journalled runs

The outcome of a run forgets its journal. `result_through` reads a run over a list of items as a
fold in `Except`, so facts about which refusal comes first are facts about folds. What a run leaves
behind, refused or not, is followed by `through_keeps`. `StopsAt` is a refusal together with what was
reached, and `stops_at_through_iff` finds the item at which a run over a list stops. What the journal
has to do with the value, refused or not, is a relation that `Tracks` runs.
-/

namespace Schemata.Progress

variable {ε α β : Type}

@[simp] theorem result_pure (value : α) : (pure value : Progress ε α).result = .ok value := rfl

@[simp] theorem result_fail (value : α) (reason : ε) :
    (fail value reason).result = .error reason := rfl

@[simp] theorem result_step (value : α) (event : Event) :
    (step value event : Progress ε α).result = .ok value := rfl

theorem result_eq_value {run : Progress ε α} (h : run.failure = none) :
    run.result = .ok run.value :=
  result_eq_ok_iff.mpr ⟨h, rfl⟩

theorem result_andThen (run : Progress ε α) (next : α → Progress ε α) :
    (run.andThen next).result = run.result >>= fun value => (next value).result := by
  cases h : run.failure with
  | none => simp [result, h, bind, Except.bind]
  | some reason => simp [result, h, bind, Except.bind]

@[simp] theorem result_emit (run : Progress ε α) (event : α → Event) :
    (run.emit event).result = run.result := by
  rw [emit, result_andThen]
  cases run.result <;> rfl

theorem result_map (f : α → β) (run : Progress ε α) : (run.map f).result = f <$> run.result := by
  cases h : run.failure <;> simp [result, map, h, Functor.map, Except.map]

theorem andThen_assoc (run : Progress ε α) (next more : α → Progress ε α) :
    (run.andThen next).andThen more = run.andThen fun value => (next value).andThen more := by
  cases hrun : run.failure with
  | some reason => simp [hrun]
  | none =>
      rw [andThen_of_none hrun, andThen_of_none hrun]
      cases hnext : (next run.value).failure with
      | some reason => simp [andThen, hnext]
      | none => simp [andThen, hnext]

/-- A run over two lists goes on with the second one where it reached the end of the first. -/
theorem through_append (next : α → β → Progress ε α) (value : α) (items more : List β) :
    through next value (items ++ more) =
      (through next value items).andThen fun reached => through next reached more := by
  induction items generalizing value with
  | nil => rw [List.nil_append, through, pure_andThen]
  | cons item rest ih =>
      rw [List.cons_append, through, through, andThen_assoc]
      simp only [ih]

/-- The journal of a run begins with the journal of its first part. -/
theorem journal_prefix_andThen (run : Progress ε α) (next : α → Progress ε α) :
    run.journal <+: (run.andThen next).journal := by
  cases h : run.failure with
  | some reason => simp [andThen_of_failure h]
  | none => simp [andThen_of_none h]

theorem journal_prefix_through (next : α → β → Progress ε α) (value : α) (items more : List β) :
    (through next value items).journal <+: (through next value (items ++ more)).journal := by
  rw [through_append]
  exact journal_prefix_andThen _ _

/-- A run over batches of items, one after the other, is the run over all their items. -/
theorem through_batches {γ : Type} (next : α → β → Progress ε α) (items : γ → List β) (value : α)
    (batches : List γ) :
    through (fun reached batch => through next reached (items batch)) value batches =
      through next value (batches.flatMap items) := by
  induction batches generalizing value with
  | nil => rfl
  | cons batch rest ih =>
      rw [List.flatMap_cons, through_append, through]
      simp only [ih]

theorem result_through (next : α → β → Progress ε α) (value : α) (items : List β) :
    (through next value items).result =
      items.foldlM (fun reached item => (next reached item).result) value := by
  induction items generalizing value with
  | nil => rfl
  | cons item rest ih =>
      rw [through, result_andThen, List.foldlM_cons]
      cases (next value item).result with
      | error reason => rfl
      | ok reached => exact ih reached

theorem bind_eq_ok_iff {first : Except ε α} {next : α → Except ε β} {value : β} :
    first >>= next = .ok value ↔ ∃ middle, first = .ok middle ∧ next middle = .ok value := by
  cases first <;> simp [bind, Except.bind]

theorem bind_eq_error_iff {first : Except ε α} {next : α → Except ε β} {reason : ε} :
    first >>= next = .error reason ↔
      first = .error reason ∨ ∃ middle, first = .ok middle ∧ next middle = .error reason := by
  cases first <;> simp [bind, Except.bind]

theorem map_eq_ok_iff {f : α → β} {first : Except ε α} {value : β} :
    f <$> first = .ok value ↔ ∃ middle, first = .ok middle ∧ f middle = value := by
  cases first <;> simp [Functor.map, Except.map]

theorem map_eq_error_iff {f : α → β} {first : Except ε α} {reason : ε} :
    f <$> first = .error reason ↔ first = .error reason := by
  cases first <;> simp [Functor.map, Except.map]

theorem fold_cons_eq_ok_iff {f : α → β → Except ε α} {value reached : α} {item : β}
    {rest : List β} :
    (item :: rest).foldlM f value = .ok reached ↔
      ∃ middle, f value item = .ok middle ∧ rest.foldlM f middle = .ok reached := by
  rw [List.foldlM_cons, bind_eq_ok_iff]

/-- What every item that is taken keeps holds where all items were taken. -/
theorem result_through_keeps {P : α → Prop} {next : α → β → Progress ε α}
    (hnext : ∀ value item reached, (next value item).result = .ok reached → P value → P reached)
    {value reached : α} {items : List β} (h : (through next value items).result = .ok reached)
    (hvalue : P value) : P reached := by
  induction items generalizing value with
  | nil =>
      cases h
      exact hvalue
  | cons item rest ih =>
      rw [through, result_andThen] at h
      cases hitem : (next value item).result with
      | error reason =>
          rw [hitem] at h
          cases h
      | ok middle =>
          rw [hitem] at h
          exact ih h (hnext value item middle hitem hvalue)

/-- The value of a run that goes on is that of its last part. -/
theorem value_andThen (run : Progress ε α) (next : α → Progress ε α) :
    (run.andThen next).value = run.value ∨ (run.andThen next).value = (next run.value).value := by
  cases h : run.failure with
  | none => exact .inr (by simp [h])
  | some reason => exact .inl (by simp [h])

@[simp] theorem value_emit (run : Progress ε α) (event : α → Event) :
    (run.emit event).value = run.value := by
  rcases value_andThen run fun value => step value (event value) with h | h
  · exact h
  · exact h

/-- What every item keeps, also one that is refused, holds wherever the run ends. -/
theorem through_keeps {P : α → Prop} {next : α → β → Progress ε α}
    (hnext : ∀ value item, P value → P (next value item).value)
    {value : α} (h : P value) (items : List β) : P (through next value items).value := by
  induction items generalizing value with
  | nil => exact h
  | cons item rest ih =>
      have hitem := hnext value item h
      rcases value_andThen (next value item) fun reached => through next reached rest with hv | hv
      · rw [through, hv]
        exact hitem
      · rw [through, hv]
        exact ih hitem

/-- The run is refused for a reason, where it has reached a value. -/
def StopsAt (run : Progress ε α) (reason : ε) (reached : α) : Prop :=
  run.failure = some reason ∧ run.value = reached

section Stops

variable {run : Progress ε α} {reason : ε} {reached : α}

theorem result_eq_error_iff : run.result = .error reason ↔ ∃ reached, run.StopsAt reason reached := by
  unfold result
  cases h : run.failure <;> simp [StopsAt, h]

@[simp] theorem not_stops_at_pure {value : α} :
    ¬(pure value : Progress ε α).StopsAt reason reached := by
  simp [StopsAt, pure]

@[simp] theorem not_stops_at_step {value : α} {event : Event} :
    ¬(step value event : Progress ε α).StopsAt reason reached := by
  simp [StopsAt, step]

@[simp] theorem stops_at_fail_iff {value : α} {why : ε} :
    (fail value why).StopsAt reason reached ↔ why = reason ∧ value = reached := by
  simp [StopsAt, fail]

/-- A run in two parts stops in the first one, or in the second one behind the first. -/
theorem stops_at_andThen_iff {next : α → Progress ε α} :
    (run.andThen next).StopsAt reason reached ↔
      run.StopsAt reason reached ∨
        ∃ middle, run.result = .ok middle ∧ (next middle).StopsAt reason reached := by
  cases h : run.failure with
  | none => simp [StopsAt, result, h]
  | some why => simp [StopsAt, result, h]

@[simp] theorem stops_at_emit_iff {event : α → Event} :
    (run.emit event).StopsAt reason reached ↔ run.StopsAt reason reached := by
  simp [emit, stops_at_andThen_iff]

theorem stops_at_map_iff {f : α → β} {image : β} :
    (run.map f).StopsAt reason image ↔ ∃ reached, run.StopsAt reason reached ∧ f reached = image := by
  constructor
  · rintro ⟨hfailure, hvalue⟩
    exact ⟨run.value, ⟨hfailure, rfl⟩, hvalue⟩
  · rintro ⟨reached, ⟨hfailure, rfl⟩, rfl⟩
    exact ⟨hfailure, rfl⟩

/-- A run over a list stops at the first item that is refused behind the ones before it. -/
theorem stops_at_through_iff {next : α → β → Progress ε α} {value : α} {items : List β} :
    (through next value items).StopsAt reason reached ↔
      ∃ before item after middle, items = before ++ item :: after ∧
        (through next value before).result = .ok middle ∧
        (next middle item).StopsAt reason reached := by
  induction items generalizing value with
  | nil => simp [through]
  | cons first rest ih =>
      rw [through, stops_at_andThen_iff]
      constructor
      · rintro (hfirst | ⟨middle, hfirst, hrest⟩)
        · exact ⟨[], first, rest, value, rfl, rfl, hfirst⟩
        · obtain ⟨before, item, after, reached, rfl, hbefore, hitem⟩ := ih.mp hrest
          refine ⟨first :: before, item, after, reached, rfl, ?_, hitem⟩
          rw [through, result_andThen, hfirst]
          exact hbefore
      · rintro ⟨before, item, after, middle, hsplit, hbefore, hitem⟩
        rcases List.cons_eq_append_iff.mp hsplit with ⟨rfl, hsplit⟩ | ⟨others, rfl, rfl⟩
        · obtain ⟨rfl, rfl⟩ := List.cons.inj hsplit
          cases hbefore
          exact .inl hitem
        · rw [through, result_andThen] at hbefore
          cases hfirst : (next value first).result with
          | error why => simp [hfirst, bind, Except.bind] at hbefore
          | ok behind =>
              rw [hfirst] at hbefore
              exact .inr ⟨behind, rfl, ih.mpr ⟨others, item, after, middle, rfl, hbefore, hitem⟩⟩

/-- Items that are passed over play no part in where a run stops. -/
theorem stops_at_through_filter {p : β → Bool} {next : α → β → Progress ε α}
    (hpassed : ∀ value item, p item = false → (next value item).result = .ok value)
    {value : α} (items : List β) :
    (through next value items).StopsAt reason reached ↔
      (through next value (items.filter p)).StopsAt reason reached := by
  induction items generalizing value with
  | nil => rfl
  | cons item rest ih =>
      cases hitem : p item with
      | true =>
          rw [List.filter_cons_of_pos hitem, through, through, stops_at_andThen_iff,
            stops_at_andThen_iff]
          simp only [ih]
      | false =>
          have hresult := hpassed value item hitem
          have hnever : ¬(next value item).StopsAt reason reached := fun hstops => by
            rw [result_eq_error_iff.mpr ⟨reached, hstops⟩] at hresult
            cases hresult
          rw [List.filter_cons_of_neg (by simp [hitem]), through, stops_at_andThen_iff, hresult]
          simp [hnever, ih]

end Stops

/-- A relation of the value where a run starts, its journal and the value where it ends, that goes from
runs to the run of one after the other. -/
structure Tracks (R : α → Journal → α → Prop) : Prop where
  refl : ∀ value, R value [] value
  trans : ∀ {first second third journal more}, R first journal second → R second more third →
    R first (journal ++ more) third

namespace Tracks

variable {R : α → Journal → α → Prop}

theorem andThen (h : Tracks R) {value : α} {run : Progress ε α} {next : α → Progress ε α}
    (hrun : R value run.journal run.value)
    (hnext : R run.value (next run.value).journal (next run.value).value) :
    R value (run.andThen next).journal (run.andThen next).value := by
  cases hfailure : run.failure with
  | some reason =>
      rw [andThen_of_failure hfailure]
      exact hrun
  | none =>
      rw [andThen_of_none hfailure]
      exact h.trans hrun hnext

/-- What every item keeps track of, also one that is refused, a run over a list keeps track of wherever
it ends. -/
theorem through (h : Tracks R) {next : α → β → Progress ε α}
    (hnext : ∀ value item, R value (next value item).journal (next value item).value) (value : α)
    (items : List β) :
    R value (through next value items).journal (through next value items).value := by
  induction items generalizing value with
  | nil => exact h.refl value
  | cons item rest ih => exact h.andThen (hnext value item) (ih _)

end Tracks

end Schemata.Progress
