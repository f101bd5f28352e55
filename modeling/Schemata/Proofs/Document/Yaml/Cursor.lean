import Schemata.Document.Yaml.Writer

/-!
# Going over written white space

White space is written as blanks and as line breaks of three kinds: the line feed and the two
separators. Where such white space stands, the cursor and the gap after it are known exactly.
-/

namespace Schemata.Yaml

/-- A line break that is written as it is. -/
def IsWrittenBreak (c : Char) : Prop :=
  c = '\n' ∨ c = '\u2028' ∨ c = '\u2029'

theorem IsWrittenBreak.is_break {c : Char} (h : IsWrittenBreak c) : isBreak c = true := by
  rcases h with rfl | rfl | rfl <;> rfl

/-- Whether no white space stands first. -/
def StartsDark (rest : List Char) : Prop :=
  ∀ c ∈ rest.head?, isSpace c = false

theorem starts_dark_cons {c : Char} {rest : List Char} :
    StartsDark (c :: rest) ↔ isSpace c = false := by
  simp [StartsDark]

theorem starts_dark_append {text : List Char} (hnonempty : text ≠ []) (h : StartsDark text)
    (rest : List Char) : StartsDark (text ++ rest) := by
  cases text with
  | nil => exact absurd rfl hnonempty
  | cons c text => exact h

theorem is_gap_of_dark {c : Char} (h : isSpace c = false) : isGap c = false := by
  simp_all [isSpace]

theorem is_break_of_dark {c : Char} (h : isSpace c = false) : isBreak c = false := by
  simp_all [isSpace]

namespace Writing

theorem blanks_succ (n : Nat) : blanks (n + 1) = ' ' :: blanks n := rfl

@[simp] theorem length_blanks (n : Nat) : (blanks n).length = n := List.length_replicate

theorem eq_blanks {gap : List Char} (h : ∀ c ∈ gap, c = ' ') : gap = blanks gap.length :=
  List.eq_replicate_of_mem h

end Writing

variable {rest : List Char} {index line column : Nat}

namespace Cursor

theorem advance_append (text rest : List Char) (index line column : Nat) :
    advance ⟨text ++ rest, index, line, column⟩ text.length =
      ⟨rest, index + text.length, line, column + text.length⟩ := by
  simp [advance]

theorem advance_cons (c : Char) (rest : List Char) (index line column : Nat) :
    advance ⟨c :: rest, index, line, column⟩ 1 = ⟨rest, index + 1, line, column + 1⟩ := rfl

theorem next_line_break {c : Char} (h : IsWrittenBreak c) :
    nextLine ⟨c :: rest, index, line, column⟩ = ⟨rest, index + 1, line + 1, 0⟩ := by
  rcases h with rfl | rfl | rfl <;> rfl

theorem break_text_break {c : Char} (h : IsWrittenBreak c) :
    breakText ⟨c :: rest, index, line, column⟩ = [c] := by
  rcases h with rfl | rfl | rfl <;> rfl

theorem sees_break_of_dark (h : StartsDark rest) :
    sees ⟨rest, index, line, column⟩ isBreak = false := by
  cases rest with
  | nil => rfl
  | cons c rest => exact is_break_of_dark (starts_dark_cons.mp h)

end Cursor

namespace Gap

variable {fuel : Nat}

theorem read_dark (h : StartsDark rest) (indentation : Option Nat) (gap : Gap) :
    read indentation fuel gap ⟨rest, index, line, column⟩ =
      some (gap, ⟨rest, index, line, column⟩) := by
  cases fuel with
  | zero => rfl
  | succ fuel =>
      cases rest with
      | nil => rfl
      | cons c rest =>
          have hspace := starts_dark_cons.mp h
          simp [read, is_gap_of_dark hspace, is_break_of_dark hspace]

/-- Blanks within a line are kept. -/
theorem read_more_blanks (h : StartsDark rest) (indentation : Option Nat) (chars : List Char)
    {count : Nat} (hfuel : count ≤ fuel) (index line column : Nat) :
    read indentation fuel (blanks chars) ⟨Writing.blanks count ++ rest, index, line, column⟩ =
      some (blanks (chars ++ Writing.blanks count),
        ⟨rest, index + count, line, column + count⟩) := by
  induction count generalizing fuel chars index column with
  | zero =>
      rw [show chars ++ Writing.blanks 0 = chars from List.append_nil chars]
      exact read_dark h indentation (blanks chars)
  | succ count ih =>
      obtain ⟨fuel, rfl⟩ := Nat.exists_eq_add_of_le' (show 1 ≤ fuel by omega)
      rw [Writing.blanks_succ, List.cons_append, read]
      simp only [isGap, beq_self_eq_true, Bool.true_or, if_true, Cursor.advance_cons]
      rw [ih (chars ++ [' ']) (by omega), List.append_assoc, Nat.add_right_comm index,
        Nat.add_assoc index, Nat.add_right_comm column, Nat.add_assoc column]
      rfl

/-- Blanks at the start of a line do not count. -/
theorem read_indent (h : StartsDark rest) (indentation : Option Nat) (first others : List Char)
    {count : Nat} (hfuel : count ≤ fuel) (index line column : Nat) :
    read indentation fuel (breaks first others)
        ⟨Writing.blanks count ++ rest, index, line, column⟩ =
      some (breaks first others, ⟨rest, index + count, line, column + count⟩) := by
  induction count generalizing fuel index column with
  | zero => exact read_dark h indentation (breaks first others)
  | succ count ih =>
      obtain ⟨fuel, rfl⟩ := Nat.exists_eq_add_of_le' (show 1 ≤ fuel by omega)
      rw [Writing.blanks_succ, List.cons_append, read]
      simp only [isGap, beq_self_eq_true, Bool.true_or, if_true, Cursor.advance_cons,
        Char.reduceEq, false_and, if_false]
      rw [ih (by omega), Nat.add_right_comm index, Nat.add_assoc index, Nat.add_right_comm column,
        Nat.add_assoc column]

/-- Line breaks after a first one are kept. -/
theorem read_more_breaks (h : StartsDark rest) (indentation : Option Nat) {chars : List Char}
    (hchars : ∀ c ∈ chars, IsWrittenBreak c) (first others : List Char) {count : Nat}
    (hfuel : chars.length + count ≤ fuel) (index line : Nat) :
    ∃ index' line',
      read indentation fuel (breaks first others)
          ⟨chars ++ (Writing.blanks count ++ rest), index, line, 0⟩ =
        some (breaks first (others ++ chars), ⟨rest, index', line', count⟩) := by
  induction chars generalizing fuel others index line with
  | nil =>
      have hrest := read_indent h indentation first others (by simpa using hfuel) index line 0
      rw [Nat.zero_add] at hrest
      exact ⟨_, _, by simpa using hrest⟩
  | cons c chars ih =>
      rw [List.length_cons] at hfuel
      obtain ⟨fuel, rfl⟩ := Nat.exists_eq_add_of_le' (show 1 ≤ fuel by omega)
      have hc : IsWrittenBreak c := hchars c (by simp)
      obtain ⟨index', line', hrest⟩ := ih (fun other hother => hchars other (by simp [hother]))
        (others ++ [c]) (by omega : chars.length + count ≤ fuel) (index + 1) (line + 1)
      refine ⟨index', line', ?_⟩
      have hgap : isGap c = false := by rcases hc with rfl | rfl | rfl <;> rfl
      rw [List.cons_append, read]
      simp only [hgap, hc.is_break, Bool.false_eq_true, if_false, if_true,
        Cursor.next_line_break hc, Cursor.break_text_break hc]
      rw [hrest, List.append_assoc, List.singleton_append]

/-- Blanks up to the next word are read. -/
theorem read_blanks (h : StartsDark rest) (indentation : Option Nat) {gap : List Char}
    (hgap : ∀ c ∈ gap, c = ' ') (index line column : Nat) :
    read indentation (gap ++ rest).length empty ⟨gap ++ rest, index, line, column⟩ =
      some (blanks gap, ⟨rest, index + gap.length, line, column + gap.length⟩) := by
  have hread := read_more_blanks h indentation [] (by simp : gap.length ≤ (gap ++ rest).length)
    index line column
  rwa [← Writing.eq_blanks hgap] at hread

/-- Line breaks up to the next word are read, and the blanks after them do not count. -/
theorem read_breaks (h : StartsDark rest) (indentation : Option Nat) {first : Char}
    {others : List Char} (hgap : ∀ c ∈ first :: others, IsWrittenBreak c)
    (count index line column : Nat) :
    ∃ index' line',
      read indentation (first :: others ++ (Writing.blanks count ++ rest)).length empty
          ⟨first :: others ++ (Writing.blanks count ++ rest), index, line, column⟩ =
        some (breaks [first] others, ⟨rest, index', line', count⟩) := by
  have hfirst : IsWrittenBreak first := hgap first (by simp)
  obtain ⟨index', line', hrest⟩ := read_more_breaks h indentation
    (fun c hc => hgap c (by simp [hc])) [first] []
    (by simp : others.length + count ≤ (others ++ (Writing.blanks count ++ rest)).length)
    (index + 1) (line + 1)
  refine ⟨index', line', ?_⟩
  have hfirstGap : isGap first = false := by rcases hfirst with rfl | rfl | rfl <;> rfl
  rw [empty, List.cons_append, List.length_cons, read]
  simp only [hfirstGap, hfirst.is_break, Bool.false_eq_true, if_false, if_true,
    Cursor.next_line_break hfirst, Cursor.break_text_break hfirst]
  exact hrest

end Gap

end Schemata.Yaml
