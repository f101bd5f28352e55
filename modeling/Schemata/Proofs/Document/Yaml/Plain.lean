import Schemata.Document.Yaml.FlowScalar
import Schemata.Proofs.Document.Yaml.Writing

/-!
# Reading written plain scalars

The reader of plain scalars goes from word to word. A text that is `Legible` is read up to the end
of its line, `read_text`, by induction over its words.
-/

namespace Schemata.Yaml.Plain

open Writing

theorem inner_means_suffix (text : List Char) {rest : List Char}
    (h : innerMeans (text ++ rest) = false) :
    innerMeans rest = false := by
  induction text with
  | nil => exact h
  | cons c text ih =>
      refine ih ?_
      cases hmore : text ++ rest with
      | nil => rfl
      | cons d more =>
          rw [List.cons_append, hmore, innerMeans, Bool.or_eq_false_iff] at h
          exact h.2

theorem starts_apart_append {text : List Char} (h : startsApart text = false) (rest : List Char) :
    startsApart (text ++ rest) = false := by
  cases text with
  | nil => cases h
  | cons c text => exact h

/-- A run ends at white space and not before: no colon of it stands apart. -/
theorem run_word {before : Char} {word more rest : List Char}
    (hinner : innerMeans (before :: (word ++ more)) = false) (hword : ∀ c ∈ word, isSpace c = false)
    (hspace : (⟨more ++ rest, 0, 0, 0⟩ : Cursor).sees isSpace = true) :
    run false (word ++ (more ++ rest)) = some word := by
  induction word generalizing before with
  | nil =>
      rw [List.nil_append]
      cases htail : more ++ rest with
      | nil => simp [htail, Cursor.sees] at hspace
      | cons c tail =>
          have hc : isSpace c = true := by simpa [htail, Cursor.sees] using hspace
          simp [run, hc]
  | cons c word ih =>
      have hc : isSpace c = false := hword c (by simp)
      have hcolon : (c == ':' && startsApart (word ++ (more ++ rest))) = false := by
        rw [List.cons_append, innerMeans] at hinner
        simp only [Bool.or_eq_false_iff, Bool.and_eq_false_iff] at hinner
        rcases hinner.1.1 with h | h
        · simp [h]
        · rw [← List.append_assoc, starts_apart_append h, Bool.and_false]
      have hrest : run false (word ++ (more ++ rest)) = some word :=
        ih (inner_means_suffix [before] hinner)
          fun other hother => hword other (by simp [hother])
      rw [List.cons_append, run, hrest]
      simp [hc, hcolon]

/-- What a text without quotes is like after a character. -/
structure Legible (before : Char) (text : List Char) : Prop where
  nonempty : text ≠ []
  dark : StartsDark text
  hash : text.head? ≠ some '#'
  inner : innerMeans (before :: text) = false
  spaces : ∀ c ∈ text, isSpace c = true → c = ' '
  last : text.getLast? ≠ some ' '

namespace Legible

variable {before : Char} {word gap more : List Char}

theorem word_nonempty (h : Legible before (word ++ (gap ++ more)))
    (hgap : ∀ c ∈ gap, isSpace c = true) (hnone : gap = [] → more = []) : word ≠ [] :=
  run_nonempty h.nonempty h.dark hgap hnone

theorem gap_blanks (h : Legible before (word ++ (gap ++ more)))
    (hgap : ∀ c ∈ gap, isSpace c = true) : ∀ c ∈ gap, c = ' ' :=
  fun c hc => h.spaces c (by simp [hc]) (hgap c hc)

theorem after_gap (h : Legible before (word ++ (gap ++ more)))
    (hgap : ∀ c ∈ gap, isSpace c = true) (hnonempty : gap ≠ []) (hmore : StartsDark more) :
    Legible ' ' more := by
  obtain ⟨spaces, rfl⟩ : ∃ spaces, gap = spaces ++ [' '] := by
    have hblanks := eq_blanks (h.gap_blanks hgap)
    cases gap with
    | nil => exact absurd rfl hnonempty
    | cons c gap => exact ⟨blanks gap.length, by rw [hblanks]; exact List.replicate_succ'⟩
  have hinner : innerMeans (' ' :: more) = false := by
    refine inner_means_suffix (before :: (word ++ spaces)) ?_
    simpa using h.inner
  refine ⟨?_, hmore, ?_, hinner, fun c hc => h.spaces c (by simp [hc]), ?_⟩
  · rintro rfl
    exact h.last (by simp)
  · intro hhash
    obtain ⟨rest, rfl⟩ := List.head?_eq_some_iff.mp hhash
    simp [innerMeans, isSpace, isGap] at hinner
  · intro hlast
    refine h.last ?_
    rw [← List.append_assoc, List.getLast?_append, hlast]
    rfl

end Legible

/-- A word is taken over together with the white space before it. -/
theorem read_word {indentation fuel column : Nat} {word rest : List Char} {found : Gap}
    {cursor : Cursor} (hcolumn : column ≠ 0) (hnonempty : word ≠ []) (hhash : word.head? ≠ some '#')
    (hrun : run false (word ++ rest) = some word) (index line : Nat)
    (hspace :
      (⟨rest, index + word.length, line, column + word.length⟩ : Cursor).sees isSpace = true)
    (hgap : Gap.read (some indentation) rest.length .empty
      ⟨rest, index + word.length, line, column + word.length⟩ = some (found, cursor))
    (taken : List Char) (gap : Gap) :
    read false indentation (fuel + 1) taken gap ⟨word ++ rest, index, line, column⟩ =
      if cursor.column < indentation then
        some { text := taken ++ gap.text ++ word, cursor, passedBreak := found.hasBreak }
      else read false indentation fuel (taken ++ gap.text ++ word) found cursor := by
  have hmark : (⟨word ++ rest, index, line, column⟩ : Cursor).atDocumentMark = false := by
    simp [Cursor.atDocumentMark, Cursor.atMark, hcolumn]
  have hsees : (⟨word ++ rest, index, line, column⟩ : Cursor).sees (· == '#') = false := by
    cases word with
    | nil => exact absurd rfl hnonempty
    | cons c word => simpa [Cursor.sees] using hhash
  rw [read]
  simp only [hmark, hsees, hrun, Bool.or_self, Bool.false_eq_true, if_false,
    Option.bind_eq_bind, Option.bind_some, List.isEmpty_eq_false_iff.mpr hnonempty,
    Cursor.advance_append, hspace, if_true, hgap, Bool.not_false, Bool.true_and,
    decide_eq_true_eq]

/-- A plain text is read up to the end of its line, and the reading goes on to what follows, which
stands further out. -/
theorem read_text {indentation column fuel : Nat} {before : Char} {text rest : List Char}
    {count : Nat} (hfuel : text.length < fuel) (h : Legible before text)
    (hcolumn : indentation ≤ column) (hcount : count < indentation) (hrest : StartsDark rest)
    (taken : List Char) (gap : Gap) (index line : Nat) :
    ∃ index' line',
      read false indentation fuel taken gap
          ⟨text ++ '\n' :: (blanks count ++ rest), index, line, column⟩ =
        some
          { text := taken ++ gap.text ++ text
            cursor := ⟨rest, index', line', count⟩
            passedBreak := true } := by
  induction fuel generalizing before text column taken gap index with
  | zero => omega
  | succ fuel ih =>
      obtain ⟨word, spaces, more, rfl, hword, hspaces, hmore, hnone⟩ := exists_run isSpace text
      have hnonempty := h.word_nonempty hspaces hnone
      have hhash : word.head? ≠ some '#' := by
        cases word with
        | nil => exact absurd rfl hnonempty
        | cons c word => exact h.hash
      by_cases hend : spaces = []
      · -- the last word ends its line, and the next line stands further out
        obtain rfl := hend
        obtain rfl := hnone rfl
        obtain ⟨index', line', hgap⟩ := Gap.read_breaks hrest (some indentation)
          (by simp [IsWrittenBreak] : ∀ c ∈ ['\n'], IsWrittenBreak c) count
          (index + word.length) line (column + word.length)
        have hrun : run false (word ++ '\n' :: (blanks count ++ rest)) = some word :=
          run_word h.inner hword rfl
        refine ⟨index', line', ?_⟩
        rw [List.append_nil, List.append_nil,
          read_word (by omega) hnonempty hhash hrun index line rfl hgap taken gap, if_pos hcount]
        rfl
      · -- the blanks after a word are taken over with the next one
        have hlegible := h.after_gap hspaces hend hmore
        have hspace (index line column : Nat) :
            (⟨spaces ++ (more ++ '\n' :: (blanks count ++ rest)), index, line, column⟩ :
              Cursor).sees isSpace = true := by
          cases spaces with
          | nil => exact absurd rfl hend
          | cons c spaces => exact hspaces c (by simp)
        have hrun : run false (word ++ (spaces ++ (more ++ '\n' :: (blanks count ++ rest)))) =
            some word := by
          rw [← List.append_assoc spaces]
          refine run_word h.inner hword ?_
          rw [List.append_assoc]
          exact hspace 0 0 0
        have hdark : StartsDark (more ++ '\n' :: (blanks count ++ rest)) :=
          starts_dark_append hlegible.nonempty hmore _
        have hgap := Gap.read_blanks hdark (some indentation) (h.gap_blanks hspaces)
          (index + word.length) line (column + word.length)
        obtain ⟨index', line', hread⟩ := ih
          (by
            simp only [List.length_append] at hfuel
            have hpos := List.length_pos_iff.mpr hnonempty
            omega)
          hlegible (by omega : indentation ≤ column + word.length + spaces.length)
          (taken ++ gap.text ++ word) (.blanks spaces) (index + word.length + spaces.length)
        have hfar : ¬ column + word.length + spaces.length < indentation := by omega
        refine ⟨index', line', ?_⟩
        rw [List.append_assoc, List.append_assoc,
          read_word (by omega) hnonempty hhash hrun index line (hspace _ _ _) hgap taken gap,
          if_neg hfar, hread]
        simp [Gap.text]

/-- What is written plain is legible, as after any character that is not white space. -/
theorem legible_of_plain {text : List Char} (hnonempty : text ≠ []) (h : allowsPlain text = true) :
    Legible ':' text := by
  obtain ⟨c, rest, rfl⟩ := List.exists_cons_of_ne_nil hnonempty
  simp only [allowsPlain, Bool.not_eq_true', Bool.or_eq_false_iff, Bool.not_eq_false'] at h
  obtain ⟨⟨⟨⟨⟨hstart, hinner⟩, hhead⟩, hlast⟩, hbreaks⟩, hprintable⟩ := h
  obtain ⟨hopening, hapart⟩ := start_means_cons hstart
  have hspaces : ∀ d ∈ c :: rest, isSpace d = true → d = ' ' := by
    intro d hd hspace
    rcases written_space (List.all_eq_true.mp hprintable d hd) hspace with h | h
    · exact h
    · have hd := (List.any_eq_false.mp hbreaks) d hd
      rw [h.is_break] at hd
      exact absurd rfl hd
  refine ⟨hnonempty, starts_dark_cons.mpr ?_, ?_, ?_, hspaces, ?_⟩
  · cases hspace : isSpace c with
    | false => rfl
    | true =>
        have hc := hspaces c (by simp) hspace
        simp [hc] at hhead
  · rintro hhash
    obtain rfl : c = '#' := by simpa using hhash
    cases hopening
  · rw [innerMeans, hinner, Bool.or_false]
    cases hcolon : c == ':' <;> simp_all [isSpace, isGap, isBreak]
  · intro h
    simp [h] at hlast

end Schemata.Yaml.Plain
