import Schemata.Document.Json.Numeral

/-!
# Reading written numerals

`Written` lists the ways to write a numeral: a sign, digits without a leading zero, a fraction and an
exponent. What is written so is scanned back whatever follows it, as long as this does not go on with
the numeral, `scan_written`.
-/

namespace Schemata.Json.Numeral

/-- At least one digit, and how the digits are written. -/
structure Digits (values : List Nat) (text : List Char) : Prop where
  nonempty : values ≠ []
  written : text.map digit? = values.map some

/-- Ways to write a fraction. -/
inductive WrittenFraction : List Nat → List Char → Prop where
  | absent : WrittenFraction [] []
  | point {values : List Nat} {text : List Char} (hdigits : Digits values text) :
      WrittenFraction values ('.' :: text)

/-- Ways to write an exponent. -/
inductive WrittenExponent : Option (Bool × List Nat) → List Char → Prop where
  | absent : WrittenExponent none []
  | unsigned {mark : Char} {values : List Nat} {text : List Char} (hmark : mark = 'e' ∨ mark = 'E')
      (hdigits : Digits values text) : WrittenExponent (some (false, values)) (mark :: text)
  | plus {mark : Char} {values : List Nat} {text : List Char} (hmark : mark = 'e' ∨ mark = 'E')
      (hdigits : Digits values text) : WrittenExponent (some (false, values)) (mark :: '+' :: text)
  | minus {mark : Char} {values : List Nat} {text : List Char} (hmark : mark = 'e' ∨ mark = 'E')
      (hdigits : Digits values text) : WrittenExponent (some (true, values)) (mark :: '-' :: text)

/-- The sign of a numeral. -/
def sign (negative : Bool) : List Char := if negative then ['-'] else []

/-- Ways to write a numeral. -/
inductive Written : Numeral → List Char → Prop where
  | parts {negative : Bool} {whole fraction : List Nat} {exponent : Option (Bool × List Nat)}
      {wholeText fractionText exponentText : List Char} (hwhole : Digits whole wholeText)
      (hzero : ∀ next rest, whole ≠ 0 :: next :: rest)
      (hfraction : WrittenFraction fraction fractionText)
      (hexponent : WrittenExponent exponent exponentText) :
      Written { negative, whole, fraction, exponent }
        (sign negative ++ (wholeText ++ (fractionText ++ exponentText)))

/-- Whether a text does not start with a character of a numeral. -/
def Stops (rest : List Char) : Prop :=
  ∀ c ∈ rest.head?, digit? c = none ∧ c ≠ '.' ∧ c ≠ 'e' ∧ c ≠ 'E'

theorem digits_append {values : List Nat} {text rest : List Char}
    (h : text.map digit? = values.map some) (hrest : ∀ c ∈ rest.head?, digit? c = none) :
    digits (text ++ rest) = (values, rest) := by
  induction text generalizing values with
  | nil =>
      obtain rfl : values = [] := by simpa using h.symm
      cases rest with
      | nil => rfl
      | cons c rest => simp [digits, hrest c rfl]
  | cons c text ih =>
      cases values with
      | nil => simp at h
      | cons value values =>
          simp only [List.map_cons, List.cons.injEq] at h
          simp [digits, h.1, ih h.2]

/-- Digits start with one. -/
theorem Digits.starts {values : List Nat} {text : List Char} (h : Digits values text) :
    ∃ c more, text = c :: more ∧ (digit? c).isSome = true := by
  cases text with
  | nil => exact absurd (by simpa using h.written.symm) h.nonempty
  | cons c more =>
      cases values with
      | nil => exact absurd rfl h.nonempty
      | cons value values =>
          have hwritten := h.written
          simp only [List.map_cons, List.cons.injEq] at hwritten
          exact ⟨c, more, rfl, by simp [hwritten.1]⟩

/-- A digit is none of the other characters of a numeral. -/
theorem ne_of_digit {c other : Char} (h : (digit? c).isSome = true)
    (hother : (digit? other).isSome = false) : c ≠ other := by
  rintro rfl
  rw [h] at hother
  cases hother

theorem scan_exponent_written {exponent : Option (Bool × List Nat)} {text rest : List Char}
    (h : WrittenExponent exponent text) (hrest : Stops rest) (numeral : Numeral)
    (hnone : numeral.exponent = none) :
    scanExponent numeral (text ++ rest) = .ok ({ numeral with exponent }, rest) := by
  -- the digits are not empty, so they do not break the numeral off
  have hfound {values : List Nat} {text : List Char} (h : Digits values text) :
      ∃ first more, digits (text ++ rest) = (first :: more, rest) ∧ values = first :: more := by
    obtain ⟨first, more, hvalues⟩ := List.exists_cons_of_ne_nil h.nonempty
    exact ⟨first, more, hvalues ▸ digits_append h.written fun c hc => (hrest c hc).1, hvalues⟩
  cases h with
  | absent =>
      obtain ⟨negative, whole, fraction, exponent⟩ := numeral
      obtain rfl : exponent = none := hnone
      cases rest with
      | nil => rfl
      | cons c rest =>
          obtain ⟨-, -, he, hE⟩ := hrest c rfl
          simp [scanExponent, he, hE]
  | unsigned hmark h =>
      obtain ⟨first, more, hdigits, rfl⟩ := hfound h
      obtain ⟨c, text, rfl, hc⟩ := h.starts
      have hplus : c ≠ '+' := ne_of_digit hc (by decide)
      have hminus : c ≠ '-' := ne_of_digit hc (by decide)
      rw [List.cons_append] at hdigits
      simp [scanExponent, hmark, hplus, hminus, hdigits]
  | plus hmark h =>
      obtain ⟨first, more, hdigits, rfl⟩ := hfound h
      simp [scanExponent, hmark, hdigits]
  | minus hmark h =>
      obtain ⟨first, more, hdigits, rfl⟩ := hfound h
      simp [scanExponent, hmark, hdigits]

theorem WrittenExponent.no_point {exponent : Option (Bool × List Nat)} {text rest : List Char}
    (h : WrittenExponent exponent text) (hrest : Stops rest) :
    ∀ c ∈ (text ++ rest).head?, digit? c = none ∧ c ≠ '.' := by
  have hmark {mark : Char} (hmark : mark = 'e' ∨ mark = 'E') : digit? mark = none ∧ mark ≠ '.' := by
    rcases hmark with rfl | rfl <;> decide
  cases h with
  | absent => exact fun c hc => ⟨(hrest c hc).1, (hrest c hc).2.1⟩
  | unsigned h hdigits => simpa using hmark h
  | plus h hdigits => simpa using hmark h
  | minus h hdigits => simpa using hmark h

theorem scan_fraction_written {fraction : List Nat} {exponent : Option (Bool × List Nat)}
    {fractionText exponentText rest : List Char} (hfraction : WrittenFraction fraction fractionText)
    (hexponent : WrittenExponent exponent exponentText) (hrest : Stops rest) (negative : Bool)
    (whole : List Nat) :
    scanFraction { negative, whole } (fractionText ++ (exponentText ++ rest)) =
      .ok ({ negative, whole, fraction, exponent }, rest) := by
  have hpoint := hexponent.no_point hrest
  have hscan (numeral : Numeral) := scan_exponent_written hexponent hrest numeral
  cases hfraction with
  | absent =>
      rw [List.nil_append]
      have hstart : scanFraction { negative, whole } (exponentText ++ rest) =
          scanExponent { negative, whole } (exponentText ++ rest) := by
        cases hcons : exponentText ++ rest with
        | nil => rfl
        | cons c more =>
            have hc := (hpoint c (by rw [hcons]; rfl)).2
            simp [scanFraction, hc]
      rw [hstart, hscan _ rfl]
  | point h =>
      obtain ⟨first, more, rfl⟩ := List.exists_cons_of_ne_nil h.nonempty
      have hdigits := digits_append h.written fun c hc => (hpoint c hc).1
      simp only [List.cons_append, scanFraction, hdigits]
      rw [hscan _ rfl]

theorem WrittenFraction.no_digit {fraction : List Nat} {text rest : List Char}
    (h : WrittenFraction fraction text) (hrest : ∀ c ∈ rest.head?, digit? c = none) :
    ∀ c ∈ (text ++ rest).head?, digit? c = none := by
  cases h with
  | absent => exact hrest
  | point hdigits =>
      intro c hc
      obtain rfl : '.' = c := by simpa using hc
      decide

theorem scan_whole_eq {text rest : List Char} {whole : List Nat}
    (hdigits : digits text = (whole, rest)) (hnonempty : whole ≠ [])
    (hzero : ∀ next others, whole ≠ 0 :: next :: others) (negative : Bool) :
    scanWhole negative text = scanFraction { negative, whole } rest := by
  rw [scanWhole, hdigits]
  split
  · rename_i heq
    cases heq
    exact absurd rfl hnonempty
  · rename_i heq
    cases heq
    exact absurd rfl (hzero _ _)
  · rename_i heq
    cases heq
    rfl

/-- A written numeral is scanned back. -/
theorem scan_written {numeral : Numeral} {text rest : List Char} (h : Written numeral text)
    (hrest : Stops rest) : scan (text ++ rest) = .ok (numeral, rest) := by
  obtain ⟨hwhole, hzero, hfraction, hexponent⟩ := h
  rename_i negative whole fraction exponent wholeText fractionText exponentText
  have hdigits := digits_append hwhole.written
    (hfraction.no_digit fun c hc => (hexponent.no_point hrest c hc).1)
  have hsign (more : List Char) : scan (sign negative ++ (wholeText ++ more)) =
      scanWhole negative (wholeText ++ more) := by
    obtain ⟨c, text, rfl, hc⟩ := hwhole.starts
    have hminus : c ≠ '-' := ne_of_digit hc (by decide)
    cases negative with
    | true => rfl
    | false => simp [sign, scan, hminus]
  simp only [List.append_assoc]
  rw [hsign, scan_whole_eq hdigits hwhole.nonempty hzero,
    scan_fraction_written hfraction hexponent hrest]

/-- A written numeral starts with its sign or with a digit. -/
theorem Written.starts {numeral : Numeral} {text : List Char} (h : Written numeral text) :
    ∃ c more, text = c :: more ∧ (c = '-' ∨ (digit? c).isSome = true) := by
  obtain ⟨hwhole, -, -, -⟩ := h
  rename_i negative whole fraction exponent wholeText fractionText exponentText
  obtain ⟨c, more, rfl, hc⟩ := hwhole.starts
  cases negative with
  | true => exact ⟨'-', _, rfl, .inl rfl⟩
  | false => exact ⟨c, _, rfl, .inr hc⟩

end Schemata.Json.Numeral
