import Mathlib
import Schemata.Document.Yaml.FlowScalar
import Schemata.Proofs.Document.Yaml.Writing

/-!
# Reading written quoted scalars

The reader of quoted scalars goes from run to run, with white space between them. Between single
quotes white space stands for itself, and the breaks of a text start lines, `read_single`. Between
double quotes only blanks do, and all else is escaped, `read_double`.
-/

namespace Schemata.Yaml.Quoted

open Writing

variable {quote : Char} {fuel index line column : Nat} {run written rest : List Char}

/-- The run at the start of a text between quotes. -/
def runOf (quote : Char) (rest : List Char) : Option Run :=
  if quote = '\'' then some (singleRun rest) else doubleRun rest

/-- After a run stands the closing quote or white space. -/
theorem read_run {run : Run} (hcolumn : column ≠ 0) (hrest : rest ≠ [])
    (hrun : runOf quote rest = some run) (hescaped : run.escapedBreak = false)
    (taken : List Char) :
    read quote (fuel + 1) taken ⟨rest, index, line, column⟩ =
      if (Cursor.advance ⟨rest, index, line, column⟩ run.length).char? = some quote then
        some
          { text := taken ++ run.chars
            cursor := (Cursor.advance ⟨rest, index, line, column⟩ run.length).advance 1 }
      else
        (Gap.read none (Cursor.advance ⟨rest, index, line, column⟩ run.length).rest.length .empty
            (Cursor.advance ⟨rest, index, line, column⟩ run.length)).bind fun found =>
          read quote fuel (taken ++ run.chars ++ found.1.text) found.2 := by
  have hmark : (⟨rest, index, line, column⟩ : Cursor).atDocumentMark = false := by
    simp [Cursor.atDocumentMark, Cursor.atMark, hcolumn]
  have hend : (⟨rest, index, line, column⟩ : Cursor).atEnd = false := by
    simp [Cursor.atEnd, hrest]
  rw [read]
  by_cases hsingle : quote = '\''
  · obtain rfl : singleRun rest = run := by simpa [runOf, hsingle] using hrun
    simp [hmark, hend, hsingle, hescaped]
  · have hdouble : doubleRun rest = some run := by simpa [runOf, hsingle] using hrun
    simp [hmark, hend, hsingle, hdouble, hescaped]

/-- A run up to the closing quote ends the scalar. -/
theorem read_end (hcolumn : column ≠ 0)
    (hrun : runOf quote (written ++ quote :: rest) =
      some { chars := run, length := written.length }) (taken : List Char) :
    read quote (fuel + 1) taken ⟨written ++ quote :: rest, index, line, column⟩ =
      some
        { text := taken ++ run
          cursor := ⟨rest, index + written.length + 1, line, column + written.length + 1⟩ } := by
  rw [read_run hcolumn (by simp) hrun rfl, Cursor.advance_append]
  simp only [Cursor.char?, List.head?_cons, if_true, Cursor.advance_cons]

/-- A run and the white space after it are taken over. -/
theorem read_more {gap : Gap} {cursor : Cursor} (hcolumn : column ≠ 0) (hrest : rest ≠ [])
    (hquote : rest.head? ≠ some quote)
    (hrun : runOf quote (written ++ rest) = some { chars := run, length := written.length })
    (hgap : Gap.read none rest.length .empty
      ⟨rest, index + written.length, line, column + written.length⟩ = some (gap, cursor))
    (taken : List Char) :
    read quote (fuel + 1) taken ⟨written ++ rest, index, line, column⟩ =
      read quote fuel (taken ++ run ++ gap.text) cursor := by
  rw [read_run hcolumn (by simp [hrest]) hrun rfl, Cursor.advance_append]
  simp only [Cursor.char?, hquote, if_false, hgap, Option.bind_some]

theorem run_single (hrun : ∀ c ∈ run, isSpace c = false) (hrest : singleRun rest = {}) :
    runOf '\'' (run.flatMap singleChar ++ rest) =
      some { chars := run, length := (run.flatMap singleChar).length } := by
  rw [runOf, if_pos rfl, Option.some.injEq]
  induction run with
  | nil => exact hrest
  | cons c run ih =>
      have hc : isSpace c = false := hrun c (by simp)
      have hmore := ih fun other hother => hrun other (by simp [hother])
      rw [List.flatMap_cons, List.append_assoc]
      by_cases hquote : c = '\''
      · rw [hquote]
        show Run.push '\'' 2 (singleRun (run.flatMap singleChar ++ rest)) = _
        rw [hmore]
        simp [Run.push, singleChar]
        omega
      · have hsingle : singleChar c = [c] := if_neg hquote
        have hstep (tail : List Char) : singleRun (c :: tail) = (singleRun tail).push c 1 := by
          rw [singleRun]
          · simp [hc, hquote]
          · simp [hquote]
        rw [hsingle, List.singleton_append, hstep, hmore]
        simp [Run.push]
        omega

/-- A quote ends a run, unless a second one follows. -/
theorem run_single_end (hrun : ∀ c ∈ run, isSpace c = false) (hrest : rest.head? ≠ some '\'') :
    runOf '\'' (run.flatMap singleChar ++ '\'' :: rest) =
      some { chars := run, length := (run.flatMap singleChar).length } := by
  refine run_single hrun ?_
  cases rest with
  | nil => rfl
  | cons c rest =>
      have hc : c ≠ '\'' := by simpa using hrest
      simp [singleRun, hc]

/-- A run between single quotes and the white space after it are taken over. -/
theorem read_single_gap {gap tail : List Char} {found : Gap} {cursor : Cursor}
    (hcolumn : column ≠ 0) (hrun : ∀ c ∈ run, isSpace c = false)
    (hgap : ∀ c ∈ gap, isSpace c = true) (hnonempty : gap ≠ [])
    (hread : Gap.read none (gap ++ tail).length .empty
      ⟨gap ++ tail, index + (run.flatMap singleChar).length, line,
        column + (run.flatMap singleChar).length⟩ = some (found, cursor)) (taken : List Char) :
    read '\'' (fuel + 1) taken ⟨run.flatMap singleChar ++ (gap ++ tail), index, line, column⟩ =
      read '\'' fuel (taken ++ run ++ found.text) cursor := by
  obtain ⟨c, others, rfl⟩ := List.exists_cons_of_ne_nil hnonempty
  have hspace : isSpace c = true := hgap c (by simp)
  have hquote : c ≠ '\'' := by
    rintro rfl
    cases hspace
  have hstart : singleRun (c :: others ++ tail) = {} := by
    rw [List.cons_append, singleRun]
    · simp [hspace]
    · simp [hquote]
  exact read_more hcolumn (by simp) (by simpa using hquote) (run_single hrun hstart) hread taken

/-- What a text between single quotes is like. -/
structure Suitable (text : List Char) : Prop where
  spaces : ∀ c ∈ text, isSpace c = true → c = ' ' ∨ IsWrittenBreak c
  feed : '\n' ∉ text
  before : meets (· == ' ') isBreak text = false
  after : meets isBreak (· == ' ') text = false

theorem Suitable.append {text rest : List Char} (h : Suitable (text ++ rest)) :
    Suitable text ∧ Suitable rest := by
  have hfeed := h.feed
  rw [List.mem_append, not_or] at hfeed
  obtain ⟨hbefore, hbeforeRest⟩ := meets_append h.before
  obtain ⟨hafter, hafterRest⟩ := meets_append h.after
  exact ⟨⟨fun c hc => h.spaces c (List.mem_append_left _ hc), hfeed.1, hbefore, hafter⟩,
    ⟨fun c hc => h.spaces c (List.mem_append_right _ hc), hfeed.2, hbeforeRest, hafterRest⟩⟩

/-- Blanks inside a text between single quotes stand for themselves. -/
theorem written_blanks {gap more : List Char} (hgap : ∀ c ∈ gap, c = ' ') (hnonempty : gap ≠ [])
    (indent : Nat) (run : List Char) :
    lines singleChar indent false (gap ++ more) ++ closing indent (run ++ (gap ++ more)) =
      gap ++ (lines singleChar indent false more ++ closing indent more) := by
  have hdark : ∀ c ∈ gap, isBreak c = false := fun c hc => hgap c hc ▸ rfl
  have hwritten : gap.flatMap singleChar = gap := by
    have hsingle : gap.flatMap singleChar = gap.flatMap fun c => [c] :=
      List.flatMap_congr fun c hc => hgap c hc ▸ rfl
    rw [hsingle, List.flatMap_singleton']
  rw [lines_run singleChar indent hdark, hwritten, List.append_assoc]
  congr 2
  by_cases hend : more = []
  · rw [hend, List.append_nil, closing_append hnonempty, closing_dark hdark]
    rfl
  · rw [closing_append (by simp [hnonempty]), closing_append hend]

/-- After breaks inside a text between single quotes the next line is indented. -/
theorem written_breaks {gap more : List Char} (hgap : ∀ c ∈ gap, isBreak c = true)
    (hnonempty : gap ≠ []) (hmore : ∀ c ∈ more.head?, isBreak c = false) (indent : Nat)
    (run : List Char) :
    lines singleChar indent false (gap ++ more) ++ closing indent (run ++ (gap ++ more)) =
      gap ++ (blanks indent ++ (lines singleChar indent false more ++ closing indent more)) := by
  rw [lines_breaks singleChar indent false hgap hnonempty, List.append_assoc]
  congr 1
  by_cases hend : more = []
  · rw [hend, List.append_nil, closing_append hnonempty, closing_breaks hgap hnonempty]
    simp [lines, closing]
  · rw [closing_append (by simp [hnonempty]), closing_append hend,
      lines_fresh singleChar indent hend hmore, List.append_assoc]

theorem written_dark {text : List Char} (h : StartsDark text) (indent : Nat) (rest : List Char) :
    StartsDark (lines singleChar indent false text ++ (closing indent text ++ '\'' :: rest)) := by
  cases text with
  | nil => exact starts_dark_cons.mpr rfl
  | cons c text =>
      have hc := starts_dark_cons.mp h
      rw [lines, if_neg (by simp [is_break_of_dark hc])]
      by_cases hquote : c = '\''
      · rw [hquote]
        exact starts_dark_cons.mpr (show isSpace '\'' = false from rfl)
      · rw [show singleChar c = [c] from if_neg hquote]
        exact starts_dark_cons.mpr hc

/-- A text between single quotes is read, and its lines are put together again. -/
theorem read_single {indent : Nat} {text : List Char} (hfuel : text.length < fuel)
    (h : Suitable text) (hindent : indent ≠ 0) (hcolumn : column ≠ 0)
    (hrest : rest.head? ≠ some '\'') (taken : List Char) (index line : Nat) :
    ∃ index' line' column',
      read '\'' fuel taken
          ⟨lines singleChar indent false text ++ (closing indent text ++ '\'' :: rest), index, line,
            column⟩ =
        some { text := taken ++ text, cursor := ⟨rest, index', line', column'⟩ } := by
  induction fuel generalizing text column taken index line with
  | zero => omega
  | succ fuel ih =>
      obtain ⟨run, gap, more, rfl, hrun, hgap, hmore, hnone⟩ := exists_run isSpace text
      have hdark : ∀ c ∈ run, isBreak c = false := fun c hc => is_break_of_dark (hrun c hc)
      obtain ⟨-, hsuitable⟩ := h.append
      obtain ⟨hsuitableGap, hsuitableMore⟩ := hsuitable.append
      rw [lines_run singleChar indent hdark]
      by_cases hend : gap = []
      · obtain rfl := hend
        obtain rfl := hnone rfl
        refine ⟨index + (run.flatMap singleChar).length + 1, line,
          column + (run.flatMap singleChar).length + 1, ?_⟩
        rw [List.append_nil, List.append_nil, closing_dark hdark, lines, List.append_nil,
          List.nil_append]
        exact read_end hcolumn (run_single_end hrun hrest) taken
      · have hmoreLength : more.length < fuel := by
          have hpos := List.length_pos_iff.mpr hend
          simp only [List.length_append] at hfuel
          omega
        have hmoreDark := written_dark hmore indent rest
        have hassoc : lines singleChar indent false (gap ++ more) ++
            (closing indent (run ++ (gap ++ more)) ++ '\'' :: rest) =
            lines singleChar indent false (gap ++ more) ++
              closing indent (run ++ (gap ++ more)) ++ '\'' :: rest :=
          (List.append_assoc _ _ _).symm
        rw [List.append_assoc, hassoc]
        -- a gap of both blanks and breaks would be folded, so the blanks would be lost
        rcases uniform_gap (fun c hc => hsuitableGap.spaces c hc (hgap c hc))
          hsuitableGap.before hsuitableGap.after with hblanks | hbreaks
        · have hread := Gap.read_blanks hmoreDark none hblanks
            (index + (run.flatMap singleChar).length) line
            (column + (run.flatMap singleChar).length)
          rw [written_blanks hblanks hend, List.append_assoc, List.append_assoc,
            read_single_gap hcolumn hrun hgap hend hread taken]
          simpa [Gap.text] using ih hmoreLength hsuitableMore (by omega) (taken ++ run ++ gap) _ _
        · obtain ⟨first, others, rfl⟩ := List.exists_cons_of_ne_nil hend
          have hfeed : first ≠ '\n' := by
            rintro rfl
            exact hsuitableGap.feed (by simp)
          obtain ⟨index', line', hread⟩ := Gap.read_breaks hmoreDark none hbreaks indent
            (index + (run.flatMap singleChar).length) line
            (column + (run.flatMap singleChar).length)
          rw [written_breaks (fun c hc => (hbreaks c hc).is_break) hend fun c hc =>
            is_break_of_dark (hmore c hc), List.append_assoc, List.append_assoc, List.append_assoc,
            read_single_gap hcolumn hrun hgap hend hread taken]
          simpa [Gap.text, hfeed] using
            ih hmoreLength hsuitableMore hindent (taken ++ run ++ first :: others) index' line'

theorem hex_value_hex_digit (n : Nat) : Text.hexValue? (hexDigit n) = some (n % 16) := by
  have hdigit : ∀ m < 16, Text.hexValue? (Nat.digitChar m).toUpper = some m := by decide
  exact hdigit (n % 16) (Nat.mod_lt n (by decide))

/-- Enough hexadecimal digits are read back as their number. -/
theorem hex_number_hex_digits (count n : Nat) :
    Text.hexNumber? (hexDigits count n) = some (n % 16 ^ count) := by
  induction count generalizing n with
  | zero => simp [hexDigits, Text.hexNumber?, Nat.mod_one]
  | succ count ih =>
      have hdigits := ih (n / 16)
      rw [Text.hexNumber?] at hdigits
      have hnumber : n % 16 ^ (count + 1) = n / 16 % 16 ^ count * 16 + n % 16 := by
        rw [Nat.pow_succ', Nat.mod_mul]
        omega
      rw [hexDigits, Text.hexNumber?, List.foldlM_append, hdigits, hnumber]
      simp [hex_value_hex_digit]

theorem char_hex {count : Nat} {c : Char} (h : c.toNat < 16 ^ count) :
    char? (hexDigits count c.toNat) = some c := by
  have hvalid : c.toNat.isValidChar := c.valid
  have hchar : Char.ofNat c.toNat = c := Char.ofNat_toNat c
  rw [Char.ofNat, dif_pos hvalid] at hchar
  rw [char?, hex_number_hex_digits, Nat.mod_eq_of_lt h]
  simp only [Option.bind_eq_bind, Option.bind_some, hvalid, dite_true, hchar]

/-- An escape is read as the character that it was written for. -/
theorem double_run_escape {c : Char} (hc : c ≠ ' ') (rest : List Char) :
    doubleRun (escape c ++ rest) = (Run.push c (escape c).length) <$> doubleRun rest := by
  by_cases hlettered : c ∈ lettered
  · simp only [lettered, List.mem_cons, List.not_mem_nil, or_false] at hlettered
    rcases hlettered with rfl | rfl | rfl | rfl | rfl | rfl | rfl | rfl | rfl | rfl | rfl | rfl |
      rfl | rfl <;> rfl
  · rw [escape_unlettered hlettered]
    split
    · rename_i hplain
      simp only [lettered, List.mem_cons, List.not_mem_nil, or_false, not_or] at hlettered
      have hspace : isSpace c = false := by
        simp_all [isSpace, isGap]
      rw [List.singleton_append, doubleRun]
      · simp [hspace, hlettered]
      all_goals simp [hlettered]
    · split
      · have hchar : char? (hexDigits 2 c.toNat) = some c := char_hex (by omega)
        simp only [hexDigits, List.nil_append, List.cons_append] at hchar ⊢
        simp [doubleRun, hchar]
      split
      · have hchar : char? (hexDigits 4 c.toNat) = some c := char_hex (by omega)
        simp only [hexDigits, List.nil_append, List.cons_append] at hchar ⊢
        simp [doubleRun, hchar]
      · have hvalid : c.toNat.isValidChar := c.valid
        have hchar : char? (hexDigits 8 c.toNat) = some c := by
          refine char_hex ?_
          rw [Nat.isValidChar] at hvalid
          omega
        simp only [hexDigits, List.nil_append, List.cons_append] at hchar ⊢
        simp [doubleRun, hchar]

/-- A text without blanks is one run between double quotes. -/
theorem run_double (hrun : ∀ c ∈ run, (c == ' ') = false) (hrest : doubleRun rest = some {}) :
    runOf '"' (run.flatMap escape ++ rest) =
      some { chars := run, length := (run.flatMap escape).length } := by
  rw [runOf, if_neg (by decide)]
  induction run with
  | nil => exact hrest
  | cons c run ih =>
      have hc : c ≠ ' ' := by simpa using hrun c (by simp)
      have hmore := ih fun other hother => hrun other (by simp [hother])
      rw [List.flatMap_cons, List.append_assoc, double_run_escape hc, hmore]
      simp [Run.push]

/-- A text between double quotes is read, its escapes resolved. -/
theorem read_double {text : List Char} (hfuel : text.length < fuel) (hcolumn : column ≠ 0)
    (taken : List Char) (index line : Nat) :
    ∃ index' column',
      read '"' fuel taken ⟨text.flatMap escape ++ '"' :: rest, index, line, column⟩ =
        some { text := taken ++ text, cursor := ⟨rest, index', line, column'⟩ } := by
  induction fuel generalizing text column taken index with
  | zero => omega
  | succ fuel ih =>
      -- only blanks part the runs here: every other white space is escaped
      obtain ⟨run, gap, more, rfl, hrun, hgap, hmore, hnone⟩ := exists_run (· == ' ') text
      by_cases hend : gap = []
      · obtain rfl := hend
        obtain rfl := hnone rfl
        have hquote : doubleRun ('"' :: rest) = some {} := by simp [doubleRun]
        refine ⟨index + (run.flatMap escape).length + 1,
          column + (run.flatMap escape).length + 1, ?_⟩
        rw [List.append_nil, List.append_nil]
        exact read_end hcolumn (run_double hrun hquote) taken
      · have hblanks : ∀ c ∈ gap, c = ' ' := fun c hc => by simpa using hgap c hc
        have hmoreLength : more.length < fuel := by
          have hpos := List.length_pos_iff.mpr hend
          simp only [List.length_append] at hfuel
          omega
        have hmoreDark : StartsDark (more.flatMap escape ++ '"' :: rest) := by
          cases more with
          | nil => exact starts_dark_cons.mpr rfl
          | cons c more =>
              rw [List.flatMap_cons, List.append_assoc]
              exact escape_dark (by simpa using hmore c rfl) _
        have hwritten : gap.flatMap escape = gap := by
          have hsingle : gap.flatMap escape = gap.flatMap fun c => [c] :=
            List.flatMap_congr fun c hc => hblanks c hc ▸ rfl
          rw [hsingle, List.flatMap_singleton']
        have hread := Gap.read_blanks hmoreDark none hblanks
          (index + (run.flatMap escape).length) line (column + (run.flatMap escape).length)
        have hstart : ∃ others, gap ++ (more.flatMap escape ++ '"' :: rest) = ' ' :: others := by
          obtain ⟨c, others, rfl⟩ := List.exists_cons_of_ne_nil hend
          obtain rfl := hblanks c (by simp)
          exact ⟨_, rfl⟩
        obtain ⟨others, hothers⟩ := hstart
        have hrunRead :
            runOf '"' (run.flatMap escape ++ (gap ++ (more.flatMap escape ++ '"' :: rest))) =
            some { chars := run, length := (run.flatMap escape).length } := by
          refine run_double hrun ?_
          rw [hothers]
          simp [doubleRun, isSpace, isGap]
        have hquote : (gap ++ (more.flatMap escape ++ '"' :: rest)).head? ≠ some '"' := by
          simp [hothers]
        rw [List.flatMap_append, List.flatMap_append, hwritten, List.append_assoc,
          List.append_assoc, read_more hcolumn (by simp) hquote hrunRead hread taken]
        simpa [Gap.text] using ih hmoreLength (by omega) (taken ++ run ++ gap) _

end Schemata.Yaml.Quoted
