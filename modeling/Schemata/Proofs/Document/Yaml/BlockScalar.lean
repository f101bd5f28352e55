import Schemata.Document.Yaml.BlockScalar
import Schemata.Proofs.Document.Yaml.Writing

/-!
# Reading written literal scalars

A literal text has breaks at its start and at its end, and lines between them. The reader takes the
first breaks while it looks for the indentation, `empty_lines_breaks`, then line after line,
`read_lines`, and the header tells it how many of the last breaks belong to the text.
-/

namespace Schemata.Yaml.Block

open Writing

variable {rest : List Char} {index line column : Nat}

/-- A line that goes on as `rest` after some blanks is not empty, and its indentation is known. -/
inductive Starts (indentation : Option Nat) (count : Nat) (rest : List Char) : Prop where
  /-- The line is not indented further than a given limit. -/
  | within (hlimit : indentation.all (count ≤ ·) = true) (hrest : StartsDark rest)
  /-- The line is indented as given, and may go on with more blanks. -/
  | full (hlimit : indentation = some count) (hrest : ∀ c ∈ rest.head?, isBreak c = false)

namespace Starts

variable {indentation : Option Nat} {count : Nat}

/-- The reader goes on by the indentation, whatever more blanks there are. -/
theorem advance_eq (h : Starts indentation count rest) :
    (indentation.elim ((blanks count ++ rest).takeWhile (· == ' ')).length fun limit =>
      min ((blanks count ++ rest).takeWhile (· == ' ')).length (limit - 0)) = count := by
  have htake : (blanks count ++ rest).takeWhile (· == ' ') =
      blanks count ++ rest.takeWhile (· == ' ') :=
    List.takeWhile_append_of_pos fun c hc => by rw [List.eq_of_mem_replicate hc]; rfl
  rw [htake, List.length_append, length_blanks]
  cases h with
  | within hlimit hrest =>
      have hnone : rest.takeWhile (· == ' ') = [] := by
        cases rest with
        | nil => rfl
        | cons c rest =>
            have hc : c ≠ ' ' := by
              rintro rfl
              exact absurd (starts_dark_cons.mp hrest) (by decide)
            simp [hc]
      cases indentation with
      | none => simp [hnone]
      | some limit =>
          have hcount : count ≤ limit := by simpa using hlimit
          simp only [hnone, Option.elim_some, List.length_nil]
          omega
  | full hlimit hrest =>
      simp only [hlimit, Option.elim_some]
      omega

theorem no_tab (h : Starts indentation count rest) :
    (indentation.all (count < ·) &&
      (⟨rest, index, line, column⟩ : Cursor).sees (· == '\t')) = false := by
  cases h with
  | within hlimit hrest =>
      cases rest with
      | nil => simp [Cursor.sees]
      | cons c rest =>
          have hc : c ≠ '\t' := by
            rintro rfl
            exact absurd (starts_dark_cons.mp hrest) (by decide)
          simp [Cursor.sees, hc]
  | full hlimit hrest => simp [hlimit]

theorem no_break (h : Starts indentation count rest) :
    (⟨rest, index, line, column⟩ : Cursor).sees isBreak = false := by
  cases h with
  | within hlimit hrest => exact Cursor.sees_break_of_dark hrest
  | full hlimit hrest =>
      cases rest with
      | nil => rfl
      | cons c rest => exact hrest c rfl

end Starts

/-- The blanks before a line are its indentation. -/
theorem empty_lines_start {indentation : Option Nat} {count : Nat}
    (h : Starts indentation count rest) (fuel : Nat) (breaks : List Char)
    (widest index line : Nat) :
    emptyLines indentation (fuel + 1) breaks widest ⟨blanks count ++ rest, index, line, 0⟩ =
      some (breaks, max widest count, ⟨rest, index + count, line, count⟩) := by
  have hadvance : Cursor.advance ⟨blanks count ++ rest, index, line, 0⟩ count =
      ⟨rest, index + count, line, count⟩ := by
    simpa using Cursor.advance_append (blanks count) rest index line 0
  rw [emptyLines]
  simp only [h.advance_eq, hadvance, h.no_tab, h.no_break, Bool.false_eq_true, if_false]

/-- The breaks of empty lines are taken before the indentation of the next line. -/
theorem empty_lines_breaks {indentation : Option Nat} {count fuel : Nat} {found : List Char}
    (hfound : ∀ c ∈ found, IsWrittenBreak c) (h : Starts indentation count rest)
    (hfuel : found.length < fuel) (breaks : List Char) (widest index line : Nat) :
    ∃ index' line',
      emptyLines indentation fuel breaks widest
          ⟨found ++ (blanks count ++ rest), index, line, 0⟩ =
        some (breaks ++ found, max widest count, ⟨rest, index', line', count⟩) := by
  induction found generalizing fuel breaks widest index line with
  | nil =>
      obtain ⟨fuel, rfl⟩ := Nat.exists_eq_add_of_le' (show 1 ≤ fuel by omega)
      exact ⟨_, _, by simpa using empty_lines_start h fuel breaks widest index line⟩
  | cons c found ih =>
      rw [List.length_cons] at hfuel
      obtain ⟨fuel, rfl⟩ := Nat.exists_eq_add_of_le' (show 1 ≤ fuel by omega)
      have hc : IsWrittenBreak c := hfound c (by simp)
      have hblank : (c == ' ') = false := by rcases hc with rfl | rfl | rfl <;> rfl
      have htab : (c == '\t') = false := by rcases hc with rfl | rfl | rfl <;> rfl
      have hnone : (indentation.elim 0 fun _ : Nat => 0) = 0 := by cases indentation <;> rfl
      obtain ⟨index', line', hrest⟩ := ih (fun other hother => hfound other (by simp [hother]))
        (by omega : found.length < fuel) (breaks ++ [c]) widest (index + 1) (line + 1)
      refine ⟨index', line', ?_⟩
      rw [List.cons_append, emptyLines]
      simp [hblank, htab, hnone, Cursor.advance, Cursor.sees, hc.is_break,
        Cursor.next_line_break hc, Cursor.break_text_break hc, hrest]

/-- A line and the breaks after it are taken over. -/
theorem read_line {indentation count : Nat} {found others : List Char} {first : Char}
    (hfound : ∀ c ∈ found, isBreak c = false)
    (hbreaks : ∀ c ∈ first :: others, IsWrittenBreak c) (h : Starts (some indentation) count rest)
    (taken : Lines) (fuel index line : Nat) :
    ∃ blank index' line',
      readLines false indentation (fuel + 1) taken
          ⟨found ++ (first :: (others ++ (blanks count ++ rest))), index, line, indentation⟩ =
        readLines false indentation fuel
          { text := taken.text ++ taken.lastBreak ++ taken.breaks ++ found
            lastBreak := [first]
            breaks := others
            blankStart := blank }
          ⟨rest, index', line', count⟩ := by
  have hfirst : IsWrittenBreak first := hbreaks first (by simp)
  have htake : (found ++ (first :: (others ++ (blanks count ++ rest)))).takeWhile (!isBreak ·) =
      found := by
    rw [List.takeWhile_append_of_pos fun c hc => by simp [hfound c hc], List.takeWhile_cons,
      if_neg (by simp [hfirst.is_break]), List.append_nil]
  obtain ⟨index', line', hlines⟩ := empty_lines_breaks (fun c hc => hbreaks c (by simp [hc])) h
    (by simp only [List.length_cons, List.length_append]; omega : others.length <
      (first :: (others ++ (blanks count ++ rest))).length + 1) [] 0 (index + found.length + 1)
    (line + 1)
  refine ⟨(⟨found ++ (first :: (others ++ (blanks count ++ rest))), index, line, indentation⟩ :
    Cursor).sees isGap, index', line', ?_⟩
  have hend : (⟨found ++ (first :: (others ++ (blanks count ++ rest))), index, line, indentation⟩ :
      Cursor).atEnd = false := by
    simp [Cursor.atEnd]
  rw [readLines]
  simp only [hend, Bool.not_false, and_self, if_true, htake, Cursor.advance_append,
    Cursor.next_line_break hfirst, Cursor.break_text_break hfirst, Option.bind_eq_bind, hlines]
  rfl

theorem read_lines_end {indentation count fuel : Nat} (h : count ≠ indentation) (taken : Lines)
    (index line : Nat) :
    readLines false indentation fuel taken ⟨rest, index, line, count⟩ =
      some (taken, ⟨rest, index, line, count⟩) := by
  cases fuel with
  | zero => rfl
  | succ fuel => simp [readLines, h]

/-- The lines of a text are taken over up to its last breaks. -/
theorem read_lines {indentation count fuel : Nat} {body others : List Char} {first : Char}
    (hfuel : body.length < fuel) (hnonempty : body ≠ [])
    (hstart : ∀ c ∈ body.head?, isBreak c = false) (hlast : ∀ c ∈ body.getLast?, isBreak c = false)
    (hbody : ∀ c ∈ body, isBreak c = true → IsWrittenBreak c)
    (hbreaks : ∀ c ∈ first :: others, IsWrittenBreak c) (hcount : count < indentation)
    (hrest : StartsDark rest) (taken : Lines) (index line : Nat) :
    ∃ blank index' line',
      readLines false indentation fuel taken
          ⟨lines (fun c => [c]) indentation false body ++
            (first :: (others ++ (blanks count ++ rest))), index, line, indentation⟩ =
        some
          ({ text := taken.text ++ taken.lastBreak ++ taken.breaks ++ body
             lastBreak := [first]
             breaks := others
             blankStart := blank },
            ⟨rest, index', line', count⟩) := by
  -- line by line: what is taken so far stands for the lines above, whose breaks are pending
  induction fuel generalizing body taken index line with
  | zero => omega
  | succ fuel ih =>
      obtain ⟨found, gap, more, rfl, hfound, hgap, hmore, hnone⟩ := exists_run isBreak body
      have hfoundNonempty : found ≠ [] := run_nonempty hnonempty hstart hgap hnone
      have hwritten : found.flatMap (fun c => [c]) = found := List.flatMap_singleton' found
      rw [lines_run _ indentation hfound, hwritten]
      by_cases hend : gap = []
      · obtain rfl := hend
        obtain rfl := hnone rfl
        have hstarts : Starts (some indentation) count rest :=
          .within (by simpa using Nat.le_of_lt hcount) hrest
        obtain ⟨blank, index', line', hline⟩ :=
          read_line hfound hbreaks hstarts taken fuel index line
        refine ⟨blank, index', line', ?_⟩
        rw [List.append_nil, List.append_nil, lines, List.append_nil, hline,
          read_lines_end (by omega)]
      · have hmoreNonempty : more ≠ [] := more_nonempty hlast hgap hend
        obtain ⟨c, breaks, rfl⟩ := List.exists_cons_of_ne_nil hend
        have hwrittenBreaks : ∀ d ∈ c :: breaks, IsWrittenBreak d :=
          fun d hd => hbody d (by simp at hd ⊢; tauto) (hgap d hd)
        have hstarts : Starts (some indentation) indentation
            (lines (fun c => [c]) indentation false more ++
              (first :: (others ++ (blanks count ++ rest)))) := by
          refine .full rfl ?_
          obtain ⟨d, more, rfl⟩ := List.exists_cons_of_ne_nil hmoreNonempty
          have hd : isBreak d = false := hmore d rfl
          simp [lines, hd]
        obtain ⟨blank, index', line', hline⟩ :=
          read_line hfound hwrittenBreaks hstarts taken fuel index line
        obtain ⟨blank', index'', line'', hread⟩ := ih
          (by
            have hpos := List.length_pos_iff.mpr hfoundNonempty
            simp only [List.length_append] at hfuel
            omega)
          hmoreNonempty hmore
          (fun d hd => hlast d (by rw [← List.append_assoc, List.getLast?_append, hd]; rfl))
          (fun d hd => hbody d (by simp [hd]))
          { text := taken.text ++ taken.lastBreak ++ taken.breaks ++ found
            lastBreak := [c]
            breaks := breaks
            blankStart := blank } index' line'
        refine ⟨blank', index'', line'', ?_⟩
        rw [lines_breaks _ indentation false hgap hend,
          lines_fresh _ indentation hmoreNonempty hmore]
        simp only [List.append_assoc, List.cons_append, List.nil_append] at hline hread ⊢
        rw [hline, hread]

/-- The sign of a chomping. -/
def Chomping.sign : Chomping → List Char
  | strip => ['-']
  | clip => []
  | keep => ['+']

/-- The chomping that a text asks for. -/
def chomping (text : List Char) : Chomping :=
  match text.reverse with
  | [] => .strip
  | [c] => if isBreak c then .keep else .strip
  | c :: before :: _ => if !isBreak c then .strip else if isBreak before then .keep else .clip

/-- Whether the first line of a text does not show the indentation. -/
def startsHidden (text : List Char) : Bool :=
  text.head?.any fun c => c == ' ' || isBreak c

theorem hints_eq (text : List Char) :
    hints text = (if startsHidden text then ['2'] else []) ++ (chomping text).sign := by
  rw [hints, chomping, startsHidden]
  congr 1
  rcases text.reverse with _ | ⟨c, _ | ⟨before, rest⟩⟩
  · rfl
  · cases h : isBreak c <;> simp [h, Chomping.sign]
  · cases h : isBreak c <;> cases hbefore : isBreak before <;> simp [h, hbefore, Chomping.sign]

/-- The indicators of a header are read. -/
theorem read_indicators (hidden : Bool) (ending : Chomping) (rest : List Char)
    (index line column : Nat) :
    ∃ index' column',
      readIndicators ⟨(if hidden then ['2'] else []) ++ (ending.sign ++ '\n' :: rest), index, line,
          column⟩ =
        some (ending, if hidden then some 2 else none, ⟨'\n' :: rest, index', line, column'⟩) := by
  cases hidden <;> cases ending <;> exact ⟨_, _, rfl⟩

theorem end_header (rest : List Char) (index line column : Nat) :
    endHeader ⟨'\n' :: rest, index, line, column⟩ = some ⟨rest, index + 1, line + 1, 0⟩ := rfl

/-- All breaks of a text without lines belong to it. -/
theorem chomping_breaks {text : List Char} (h : ∀ c ∈ text, isBreak c = true)
    (hnonempty : text ≠ []) : chomping text = .keep := by
  rw [chomping]
  have hreverse : ∀ c ∈ text.reverse, isBreak c = true := fun c hc => h c (by simpa using hc)
  cases hcases : text.reverse with
  | nil => exact absurd (List.reverse_eq_nil_iff.mp hcases) hnonempty
  | cons c rest =>
      rw [hcases] at hreverse
      cases rest with
      | nil => simp [hreverse c (by simp)]
      | cons d rest => simp [hreverse c (by simp), hreverse d (by simp)]

/-- What a text asks for depends on the breaks after its last line. -/
theorem chomping_lines {before body after : List Char} (hnonempty : body ≠ [])
    (hlast : ∀ c ∈ body.getLast?, isBreak c = false) (hafter : ∀ c ∈ after, isBreak c = true) :
    chomping (before ++ (body ++ after)) =
      match after with
      | [] => .strip
      | [_] => .clip
      | _ => .keep := by
  have hreverse : (before ++ (body ++ after)).reverse =
      after.reverse ++ (body.reverse ++ before.reverse) := by simp
  obtain ⟨d, rest, hbody⟩ := List.exists_cons_of_ne_nil (mt List.reverse_eq_nil_iff.mp hnonempty)
  have hd : isBreak d = false := hlast d (by rw [← List.head?_reverse, hbody]; rfl)
  have hafterReverse : ∀ c ∈ after.reverse, isBreak c = true :=
    fun c hc => hafter c (by simpa using hc)
  rw [chomping, hreverse, hbody]
  match after with
  | [] =>
      rw [List.reverse_nil, List.nil_append, List.cons_append]
      cases rest ++ before.reverse <;> simp [hd]
  | [c] => simp [hd, hafter c (by simp)]
  | c :: e :: after =>
      cases hcases : (c :: e :: after).reverse with
      | nil => simp at hcases
      | cons x others =>
          rw [hcases] at hafterReverse
          cases others with
          | nil =>
              have hlength := congrArg List.length hcases
              simp at hlength
          | cons y others => simp [hafterReverse x (by simp), hafterReverse y (by simp)]

/-- A text has breaks only, or lines with breaks before and after them. -/
theorem exists_body (text : List Char) :
    (∀ c ∈ text, isBreak c = true) ∨
      ∃ before body after, text = before ++ (body ++ after) ∧ body ≠ [] ∧
        (∀ c ∈ before, isBreak c = true) ∧ (∀ c ∈ body.head?, isBreak c = false) ∧
        (∀ c ∈ body.getLast?, isBreak c = false) ∧ ∀ c ∈ after, isBreak c = true := by
  induction text with
  | nil => simp
  | cons c text ih =>
      cases hc : isBreak c with
      | true =>
          rcases ih with hbreaks | ⟨before, body, after, rfl, hnonempty, hbefore, hrest⟩
          · exact .inl (by simpa [hc] using hbreaks)
          · exact .inr ⟨c :: before, body, after, rfl, hnonempty,
              by simpa [hc] using hbefore, hrest⟩
      | false =>
          refine .inr ?_
          rcases ih with hbreaks | ⟨before, body, after, rfl, hnonempty, -, -, hlast, hafter⟩
          · exact ⟨[], [c], text, rfl, by simp, by simp, by simpa using hc, by simpa using hc,
              hbreaks⟩
          · refine ⟨[], c :: (before ++ body), after, by simp, by simp, by simp,
              by simpa using hc, ?_, hafter⟩
            intro d hd
            refine hlast d ?_
            obtain ⟨first, others, rfl⟩ := List.exists_cons_of_ne_nil hnonempty
            rwa [← List.cons_append, List.getLast?_append_cons] at hd

/-- The break after a literal text that does not end with one. -/
def ending (text : List Char) : List Char :=
  if text.getLast?.any isBreak then [] else ['\n']

/-- The part of a literal text below its header, when it is written breaks only. -/
theorem read_breaks_only {parent count : Nat} {text : List Char} (hnonempty : text ≠ [])
    (hbreaks : ∀ c ∈ text, IsWrittenBreak c) (hcount : count ≤ parent) (hrest : StartsDark rest)
    (index line column : Nat) :
    ∃ index' line',
      read false (parent : Int)
          ⟨hints text ++ '\n' :: (lines (fun c => [c]) (parent + 2) true text ++
            (ending text ++ (blanks count ++ rest))), index, line, column⟩ =
        some { text, cursor := ⟨rest, index', line', count⟩ } := by
  have hbreak : ∀ c ∈ text, isBreak c = true := fun c hc => (hbreaks c hc).is_break
  have hlines : lines (fun c => [c]) (parent + 2) true text = text := by
    simpa [lines] using lines_breaks (fun c => [c]) (parent + 2) true hbreak hnonempty []
  have hending : ending text = [] := by
    obtain ⟨c, hc⟩ := Option.isSome_iff_exists.mp (List.getLast?_isSome.mpr hnonempty)
    simp [ending, hc, hbreak c (List.mem_of_getLast? hc)]
  have hhidden : startsHidden text = true := by
    obtain ⟨c, others, rfl⟩ := List.exists_cons_of_ne_nil hnonempty
    simp [startsHidden, hbreak c (by simp)]
  have hstarts : Starts (some (parent + 2)) count rest := .within (by simp; omega) hrest
  obtain ⟨index₁, column₁, hindicators⟩ := read_indicators true .keep
    (text ++ (blanks count ++ rest)) index line column
  obtain ⟨index₂, line₂, hempty⟩ := empty_lines_breaks hbreaks hstarts
    (by simp only [List.length_append]; omega :
      text.length < (text ++ (blanks count ++ rest)).length + 1) [] 0 (index₁ + 1) (line + 1)
  have hend : readLines false (parent + 2) (rest.length + 1) { breaks := text }
      ⟨rest, index₂, line₂, count⟩ = some ({ breaks := text }, ⟨rest, index₂, line₂, count⟩) :=
    read_lines_end (by omega) { breaks := text } index₂ line₂
  refine ⟨index₂, line₂, ?_⟩
  rw [hlines, hending, List.nil_append, hints_eq, hhidden, chomping_breaks hbreak hnonempty,
    List.append_assoc, read, hindicators]
  have hparent : (max (parent : Int) 0).toNat + 2 = parent + 2 := by omega
  simp only [Option.bind_eq_bind, Option.bind_some, end_header, if_true, Option.map_some, hparent,
    hempty, List.nil_append, Option.getD_some, hend, Lines.chomp]
  rfl

/-- What ends a text is written after its lines. -/
theorem lines_append_breaks (write : Char → List Char) (indent : Nat) {after : List Char}
    (hafter : ∀ c ∈ after, isBreak c = true) (fresh : Bool) (text : List Char) :
    lines write indent fresh (text ++ after) = lines write indent fresh text ++ after := by
  induction text generalizing fresh with
  | nil =>
      by_cases hend : after = []
      · rw [hend, List.append_nil, List.append_nil]
      · simpa [lines] using lines_breaks write indent fresh hafter hend []
  | cons c text ih =>
      cases hc : isBreak c with
      | true => simp [lines, hc, ih]
      | false => simp [lines, hc, ih]

/-- The breaks before the lines of a text, the lines, and the breaks after them are written one
after the other. -/
theorem lines_parts (write : Char → List Char) (indent : Nat) {before body after : List Char}
    (hnonempty : body ≠ []) (hbefore : ∀ c ∈ before, isBreak c = true)
    (hstart : ∀ c ∈ body.head?, isBreak c = false) (hafter : ∀ c ∈ after, isBreak c = true) :
    lines write indent true (before ++ (body ++ after)) =
      before ++ (blanks indent ++ (lines write indent false body ++ after)) := by
  have hfresh : lines write indent true (body ++ after) =
      blanks indent ++ (lines write indent false body ++ after) := by
    rw [lines_append_breaks write indent hafter, lines_fresh write indent hnonempty hstart,
      List.append_assoc]
  by_cases hend : before = []
  · rw [hend]
    exact hfresh
  · rw [lines_breaks write indent true hbefore hend, hfresh]

/-- After the last line stands a break, and what the header says of it and of the breaks after it
gives the text. -/
theorem exists_last_breaks {body after : List Char} (before : List Char) (hnonempty : body ≠ [])
    (hlast : ∀ c ∈ body.getLast?, isBreak c = false) (hafter : ∀ c ∈ after, isBreak c = true) :
    ∃ first others, after ++ ending (before ++ (body ++ after)) = first :: others ∧
      (∀ c ∈ first :: others, c = '\n' ∨ c ∈ after) ∧
      ∀ blank, Lines.chomp ⟨before ++ body, [first], others, blank⟩
        (chomping (before ++ (body ++ after))) = before ++ (body ++ after) := by
  rw [chomping_lines hnonempty hlast hafter]
  cases after with
  | nil =>
      obtain ⟨d, hd⟩ := Option.isSome_iff_exists.mp (List.getLast?_isSome.mpr hnonempty)
      have hending : ending (before ++ (body ++ [])) = ['\n'] := by
        rw [List.append_nil, ending, List.getLast?_append, hd]
        simp [hlast d hd]
      refine ⟨'\n', [], hending, by simp, fun _ => ?_⟩
      rw [List.append_nil]
      rfl
  | cons c after =>
      obtain ⟨d, hd⟩ := Option.isSome_iff_exists.mp
        (List.getLast?_isSome.mpr (List.cons_ne_nil c after))
      have hending : ending (before ++ (body ++ c :: after)) = [] := by
        rw [ending, List.getLast?_append, List.getLast?_append, hd]
        simp [hafter d (List.mem_of_getLast? hd)]
      refine ⟨c, after, by rw [hending, List.append_nil], fun _ h => .inr h, fun _ => ?_⟩
      cases after with
      | nil => simp [Lines.chomp]
      | cons e after => simp [Lines.chomp]

/-- The header gives the indentation whenever the first line does not show it. -/
theorem starts_body (indent : Nat) {before body after : List Char} (hnonempty : body ≠ [])
    (hspaces : ∀ c ∈ before ++ (body ++ after), isSpace c = true → c = ' ' ∨ IsWrittenBreak c)
    (hbefore : ∀ c ∈ before, isBreak c = true) (hstart : ∀ c ∈ body.head?, isBreak c = false)
    (rest : List Char) :
    Starts (if startsHidden (before ++ (body ++ after)) then some indent else none) indent
      (lines (fun c => [c]) indent false body ++ rest) := by
  obtain ⟨d, body, rfl⟩ := List.exists_cons_of_ne_nil hnonempty
  have hd : isBreak d = false := hstart d rfl
  cases hhidden : startsHidden (before ++ (d :: body ++ after)) with
  | true => exact .full rfl (by simp [lines, hd])
  | false =>
      refine .within rfl ?_
      cases before with
      | nil =>
          have hblank : d ≠ ' ' := by
            rintro rfl
            simp [startsHidden] at hhidden
          rw [lines, if_neg (by simp [hd])]
          refine starts_dark_cons.mpr ?_
          cases hspace : isSpace d with
          | false => rfl
          | true =>
              rcases hspaces d (by simp) hspace with hc | hc
              · exact absurd hc hblank
              · rw [hc.is_break] at hd
                cases hd
      | cons b before => simp [startsHidden, hbefore b (by simp)] at hhidden

/-- The part of a literal text below its header, when it has lines. -/
theorem read_with_lines {parent count : Nat} {before body after : List Char} (hnonempty : body ≠ [])
    (hspaces : ∀ c ∈ before ++ (body ++ after), isSpace c = true → c = ' ' ∨ IsWrittenBreak c)
    (hbefore : ∀ c ∈ before, isBreak c = true) (hstart : ∀ c ∈ body.head?, isBreak c = false)
    (hlast : ∀ c ∈ body.getLast?, isBreak c = false) (hafter : ∀ c ∈ after, isBreak c = true)
    (hcount : count ≤ parent) (hrest : StartsDark rest) (index line column : Nat) :
    ∃ index' line',
      read false (parent : Int)
          ⟨hints (before ++ (body ++ after)) ++ '\n' ::
            (lines (fun c => [c]) (parent + 2) true (before ++ (body ++ after)) ++
              (ending (before ++ (body ++ after)) ++ (blanks count ++ rest))),
            index, line, column⟩ =
        some { text := before ++ (body ++ after), cursor := ⟨rest, index', line', count⟩ } := by
  have hwritten : ∀ c ∈ before ++ (body ++ after), isBreak c = true → IsWrittenBreak c := by
    intro c hc hbreak
    rcases hspaces c hc (by simp [isSpace, hbreak]) with rfl | hc
    · cases hbreak
    · exact hc
  obtain ⟨first, others, hlastBreaks, hmem, hchomp⟩ :=
    exists_last_breaks before hnonempty hlast hafter
  have hbreaks : ∀ c ∈ first :: others, IsWrittenBreak c := by
    intro c hc
    rcases hmem c hc with rfl | hc
    · exact .inl rfl
    · exact hwritten c (by simp [hc]) (hafter c hc)
  have hlines : lines (fun c => [c]) (parent + 2) true (before ++ (body ++ after)) ++
      (ending (before ++ (body ++ after)) ++ (blanks count ++ rest)) =
      before ++ (blanks (parent + 2) ++ (lines (fun c => [c]) (parent + 2) false body ++
        (first :: (others ++ (blanks count ++ rest))))) := by
    rw [lines_parts _ _ hnonempty hbefore hstart hafter, ← List.cons_append, ← hlastBreaks]
    simp only [List.append_assoc]
  have hstarts := starts_body (parent + 2) hnonempty hspaces hbefore hstart
    (first :: (others ++ (blanks count ++ rest)))
  have hlength := length_le_lines (fun c => List.cons_ne_nil c []) (parent + 2) false body
  obtain ⟨index₁, column₁, hindicators⟩ := read_indicators
    (startsHidden (before ++ (body ++ after))) (chomping (before ++ (body ++ after)))
    (before ++ (blanks (parent + 2) ++ (lines (fun c => [c]) (parent + 2) false body ++
      (first :: (others ++ (blanks count ++ rest)))))) index line column
  obtain ⟨index₂, line₂, hempty⟩ := empty_lines_breaks
    (fun c hc => hwritten c (by simp [hc]) (hbefore c hc)) hstarts
    (by simp only [List.length_append]; omega : before.length <
      (before ++ (blanks (parent + 2) ++ (lines (fun c => [c]) (parent + 2) false body ++
        (first :: (others ++ (blanks count ++ rest)))))).length + 1) [] 0 (index₁ + 1) (line + 1)
  obtain ⟨blank, index₃, line₃, hread⟩ := read_lines
    (by simp only [List.length_append]; omega : body.length <
      (lines (fun c => [c]) (parent + 2) false body ++
        (first :: (others ++ (blanks count ++ rest)))).length + 1)
    hnonempty hstart hlast (fun c hc => hwritten c (by simp [hc])) hbreaks
    (by omega : count < parent + 2) hrest { breaks := before } index₂ line₂
  refine ⟨index₃, line₃, ?_⟩
  -- with or without a hint, the indentation comes out as the one that was written
  have hgiven : (Option.map (fun size => (max (parent : Int) 0).toNat + size)
      (if startsHidden (before ++ (body ++ after)) then some 2 else none)) =
      if startsHidden (before ++ (body ++ after)) then some (parent + 2) else none := by
    split <;> simp
  have hindentation :
      (if startsHidden (before ++ (body ++ after)) then some (parent + 2) else none).getD
      (max (max (max 0 (parent + 2)) ((parent : Int) + 1).toNat) 1) = parent + 2 := by
    split
    · rfl
    · rw [Option.getD_none]
      omega
  rw [hlines, hints_eq, List.append_assoc, read, hindicators]
  simp only [Option.bind_eq_bind, Option.bind_some, end_header, hgiven, hempty, List.nil_append,
    hindentation, hread]
  rw [hchomp]
  rfl

/-- A literal text is read, whatever follows it further out. -/
theorem read_literal {parent count : Nat} {text : List Char} (hnonempty : text ≠ [])
    (hspaces : ∀ c ∈ text, isSpace c = true → c = ' ' ∨ IsWrittenBreak c) (hcount : count ≤ parent)
    (hrest : StartsDark rest) (index line column : Nat) :
    ∃ index' line',
      read false (parent : Int)
          ⟨hints text ++ '\n' :: (lines (fun c => [c]) (parent + 2) true text ++
            (ending text ++ (blanks count ++ rest))), index, line, column⟩ =
        some { text, cursor := ⟨rest, index', line', count⟩ } := by
  rcases exists_body text with hbreaks |
    ⟨before, body, after, rfl, hbody, hbefore, hstart, hlast, hafter⟩
  · refine read_breaks_only hnonempty (fun c hc => ?_) hcount hrest index line column
    rcases hspaces c hc (by simp [isSpace, hbreaks c hc]) with rfl | h
    · cases hbreaks ' ' hc
    · exact h
  · exact read_with_lines hbody hspaces hbefore hstart hlast hafter hcount hrest index line column

end Schemata.Yaml.Block
