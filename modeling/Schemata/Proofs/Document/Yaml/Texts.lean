import Schemata.Document.Yaml.Writer
import Schemata.Proofs.Document.Yaml.Scanner

/-!
# Scanning written texts

However a text is written after a colon, one scalar is scanned, and then the scanner stands before
the next line, `yields_text`.
-/

namespace Schemata.Yaml

open Writing

/-- How the scanner tells a way of writing. -/
def Writing.style : Writing → Style
  | .plain => .plain
  | .single | .double => .quoted
  | .literal => .literal

theorem end_line_of_last {line : List Char} {c : Char} (h : line.getLast? = some c)
    (hc : isBreak c = false) : endLine line = line ++ ['\n'] := by
  simp [endLine, h, hc]

namespace Scanner

variable {rest : List Char} {index line column parent count : Nat} {outer : List Int}
  {emitted : List Token}

/-- After a colon in a block at the column `parent`, a written text is scanned into tokens; the
scanner then stands before the rest, at the column `count`. -/
def Yields (parent count : Nat) (rest written : List Char) (tokens : List Token) : Prop :=
  ∀ (index line column : Nat) (outer : List Int) (emitted : List Token), parent < column →
    ∃ index' line',
      (between false ⟨written, index, line, column⟩ parent outer emitted).Leads
        (between true ⟨rest, index', line', count⟩ parent outer (tokens.reverse ++ emitted))

theorem starts_token_cons {c : Char} :
    StartsToken (c :: rest) ↔ isSpace c = false ∧ c ≠ '#' ∧ c ≠ byteOrderMark := by
  simp [StartsToken]

/-- A blank stands after every colon. -/
theorem yields_blank {written : List Char} {tokens : List Token} (hstart : StartsToken written)
    (h : Yields parent count rest written tokens) :
    Yields parent count rest (' ' :: written) tokens := by
  intro index line column outer emitted hcolumn
  obtain ⟨index', line', hleads⟩ := h (index + 1) line (column + 1) outer emitted (by omega)
  exact ⟨index', line', (leads_blanks hstart 1).trans hleads⟩

/-- What a text starts with that may stand without quotes. -/
theorem start_of_plain {text : List Char} (hnonempty : text ≠ []) (h : allowsPlain text = true)
    (after : List Char) :
    ∃ c more, text ++ after = c :: more ∧ isSpace c = false ∧ isOpening c = false ∧
      c ≠ byteOrderMark ∧ ((c == '?' || c == ':' || c == '-') && startsApart more) = false := by
  have hdark := (Plain.legible_of_plain hnonempty h).dark
  obtain ⟨c, text, rfl⟩ := List.exists_cons_of_ne_nil hnonempty
  simp only [allowsPlain, Bool.not_eq_true', Bool.or_eq_false_iff, Bool.not_eq_false'] at h
  obtain ⟨⟨⟨⟨⟨hstart, -⟩, -⟩, -⟩, -⟩, hprintable⟩ := h
  obtain ⟨hopening, hapart⟩ := start_means_cons hstart
  have hc : isPrintable c = true := List.all_eq_true.mp hprintable c (by simp)
  refine ⟨c, text ++ after, rfl, starts_dark_cons.mp hdark, hopening, ?_, ?_⟩
  · rintro rfl
    cases hc
  · rw [Bool.and_eq_false_iff] at hapart ⊢
    exact hapart.imp_right fun h => Plain.starts_apart_append h after

theorem starts_token_plain {text : List Char} (hnonempty : text ≠ []) (h : allowsPlain text = true)
    (after : List Char) : StartsToken (text ++ after) := by
  obtain ⟨c, more, hmore, hdark, hopening, hmark, -⟩ := start_of_plain hnonempty h after
  rw [hmore, starts_token_cons]
  exact ⟨hdark, opening_ne hopening rfl, hmark⟩

/-- A plain scalar is read together with the end of its line. -/
theorem yields_plain {text : List Char} (hnonempty : text ≠ []) (h : allowsPlain text = true)
    (hcount : count ≤ parent) (hrest : StartsToken rest) :
    Yields parent count rest (text ++ '\n' :: (blanks count ++ rest))
      [.scalar (String.ofList text) .plain] := by
  intro index line column outer emitted hcolumn
  have hindent : ((parent : Int) + 1).toNat = parent + 1 := by omega
  obtain ⟨index', line', hread⟩ := Plain.read_text
    (by simp only [List.length_append]; omega :
      text.length < (text ++ '\n' :: (blanks count ++ rest)).length + 1)
    (Plain.legible_of_plain hnonempty h) (by omega : parent + 1 ≤ column)
    (by omega : count < parent + 1) hrest.dark [] .empty index line
  obtain ⟨c, more, hmore, hdark, hopening, -, hapart⟩ :=
    start_of_plain hnonempty h ('\n' :: (blanks count ++ rest))
  have hstart := starts_token_plain hnonempty h ('\n' :: (blanks count ++ rest))
  have htoken : (between false ⟨text ++ '\n' :: (blanks count ++ rest), index, line, column⟩ parent
      outer emitted).readToken =
      (between false ⟨text ++ '\n' :: (blanks count ++ rest), index, line, column⟩ parent outer
        emitted).plain :=
    read_token_plain hmore rfl (at_mark_of_column _ _ _ (by omega) '-')
      (at_mark_of_column _ _ _ (by omega) '.') hdark hopening hapart
  have hplain : (between false ⟨text ++ '\n' :: (blanks count ++ rest), index, line, column⟩ parent
      outer emitted).plain =
      some (between true ⟨rest, index', line', count⟩ parent outer
        (.scalar (String.ofList text) .plain :: emitted)) := by
    simp only [plain, savePossible, between, Bool.false_eq_true, if_false, Option.bind_eq_bind,
      Option.bind_some, inFlow, List.isEmpty_nil, Bool.not_true, hindent, hread]
    rfl
  have hstep := step_of_token (htoken.trans hplain) hstart (by simp only [between]; omega) rfl rfl
  refine ⟨index', line', leads_of_step hstep (by simp [between]) ?_⟩
  simp only [between, List.length_append, List.length_cons]
  omega

/-- A quoted scalar is read up to the end of its line. -/
theorem yields_quoted {quote : Char} {written text : List Char}
    (hquote : quote = '\'' ∨ quote = '"') (hrest : StartsToken rest)
    (hread : ∀ index line column : Nat, column ≠ 0 → ∃ index' line' column',
      Quoted.read quote ((quote :: (written ++ '\n' :: (blanks count ++ rest))).length + 1) []
        ⟨written ++ '\n' :: (blanks count ++ rest), index, line, column⟩ =
          some { text, cursor := ⟨'\n' :: (blanks count ++ rest), index', line', column'⟩ }) :
    Yields parent count rest (quote :: (written ++ '\n' :: (blanks count ++ rest)))
      [.scalar (String.ofList text) .quoted] := by
  intro index line column outer emitted hcolumn
  obtain ⟨index₁, line₁, column₁, hread⟩ := hread (index + 1) line (column + 1) (by omega)
  have hlength : (blanks count ++ rest).length + 1 <
      (quote :: (written ++ '\n' :: (blanks count ++ rest))).length := by
    simp only [List.length_append, List.length_cons]
    omega
  generalize written ++ '\n' :: (blanks count ++ rest) = all at hread hlength ⊢
  have hstart : StartsToken (quote :: all) := by
    rw [starts_token_cons]
    rcases hquote with rfl | rfl <;> exact ⟨rfl, by decide, by decide⟩
  have htoken : (between false ⟨quote :: all, index, line, column⟩ parent outer emitted).readToken =
      (between false ⟨quote :: all, index, line, column⟩ parent outer emitted).quoted quote := by
    have hmark := at_mark_of_column (quote :: all) index line (by omega : column ≠ 0)
    rcases hquote with rfl | rfl <;> simp [readToken, between, hmark]
  have hquoted : (between false ⟨quote :: all, index, line, column⟩ parent outer
      emitted).quoted quote =
      some (between false ⟨'\n' :: (blanks count ++ rest), index₁, line₁, column₁⟩ parent outer
        (.scalar (String.ofList text) .quoted :: emitted)) := by
    simp only [quoted, savePossible, between, Bool.false_eq_true, if_false, Option.bind_eq_bind,
      Option.bind_some, Cursor.advance_cons, hread]
    rfl
  have hstep := step_of_token (htoken.trans hquoted) hstart (by simp only [between]; omega) rfl rfl
  exact leads_line hrest hstep (by simp) hlength

/-- A literal scalar is read together with the blanks of the line after it. -/
theorem yields_literal {text : List Char} (hnonempty : text ≠ [])
    (hspaces : ∀ c ∈ text, isSpace c = true → c = ' ' ∨ IsWrittenBreak c) (hcount : count ≤ parent)
    (hrest : StartsToken rest) :
    Yields parent count rest
      ('|' :: (hints text ++ '\n' :: (lines (fun c => [c]) (parent + 2) true text ++
        (Block.ending text ++ (blanks count ++ rest)))))
      [.scalar (String.ofList text) .literal] := by
  intro index line column outer emitted hcolumn
  have hlength : rest.length < (hints text ++ '\n' ::
      (lines (fun c => [c]) (parent + 2) true text ++
        (Block.ending text ++ (blanks count ++ rest)))).length := by
    simp only [List.length_append, List.length_cons]
    omega
  obtain ⟨index', line', hread⟩ := Block.read_literal hnonempty hspaces hcount hrest.dark
    (index + 1) line (column + 1)
  -- from here on only the length of what stands after the indicator matters
  generalize hints text ++ '\n' :: (lines (fun c => [c]) (parent + 2) true text ++
    (Block.ending text ++ (blanks count ++ rest))) = written at hread hlength ⊢
  have hstart : StartsToken ('|' :: written) := starts_token_cons.mpr ⟨rfl, by decide, by decide⟩
  have htoken : (between false ⟨'|' :: written, index, line, column⟩ parent outer
      emitted).readToken =
      some (between true ⟨rest, index', line', count⟩ parent outer
        (.scalar (String.ofList text) .literal :: emitted)) := by
    have hmark := at_mark_of_column ('|' :: written) index line (by omega : column ≠ 0)
    simp [readToken, between, hmark, inFlow, blockScalar, dropPossible, hread, Cursor.advance_cons,
      emit]
  have hstep := step_of_token htoken hstart (by simp only [between]; omega) rfl rfl
  refine ⟨index', line', leads_of_step hstep (by simp [between]) ?_⟩
  simp only [between, List.length_cons]
  omega

theorem nonempty_of_plain {text : List Char} (h : Writing.of text = .plain) : text ≠ [] := by
  rintro rfl
  cases h

/-- A line that holds a plain text has no end of its own. -/
theorem end_plain {text : List Char} (h : Writing.of text = .plain) (indent : Nat) :
    endLine (' ' :: render indent text) = ' ' :: (text ++ ['\n']) := by
  have hallowed := (of_eq_plain h).2
  have hlast := List.getLast?_eq_some_getLast (nonempty_of_plain h)
  have hbreak : isBreak (text.getLast (nonempty_of_plain h)) = false := by
    simp only [allowsPlain, Bool.not_eq_true', Bool.or_eq_false_iff] at hallowed
    simpa using List.any_eq_false.mp hallowed.1.2 _ (List.getLast_mem (nonempty_of_plain h))
  rw [render, h]
  refine end_line_of_last ?_ hbreak
  rw [List.getLast?_cons, hlast]
  rfl

theorem end_single {text : List Char} (h : Writing.of text = .single) (indent : Nat) :
    endLine (' ' :: render indent text) =
      ' ' :: '\'' :: (lines singleChar indent false text ++ closing indent text ++ ['\''] ++
        ['\n']) := by
  rw [render, h]
  refine end_line_of_last ?_ (show isBreak '\'' = false from rfl)
  rw [← List.cons_append, ← List.cons_append, List.getLast?_concat]

theorem end_double {text : List Char} (h : Writing.of text = .double) (indent : Nat) :
    endLine (' ' :: render indent text) =
      ' ' :: '"' :: (text.flatMap escape ++ ['"'] ++ ['\n']) := by
  rw [render, h]
  refine end_line_of_last ?_ (show isBreak '"' = false from rfl)
  show (' ' :: '"' :: (text.flatMap escape ++ ['"'])).getLast? = some '"'
  rw [← List.cons_append, ← List.cons_append, List.getLast?_concat]

/-- A text between single quotes has no line feeds, and no blanks beside its breaks. -/
theorem suitable_of_single {text : List Char} (h : Writing.of text = .single) :
    Quoted.Suitable text := by
  obtain ⟨hfeed, hallowed⟩ := of_eq_single h
  simp only [allowsSingle, Bool.and_eq_true, Bool.not_eq_true'] at hallowed
  obtain ⟨⟨-, hbefore⟩, hafter⟩ := hallowed
  exact ⟨spaces_of_ne_double (by simp [h]), hfeed, hbefore, hafter⟩

theorem single_char_ne_nil (c : Char) : singleChar c ≠ [] := by
  rw [singleChar]
  split <;> exact List.cons_ne_nil _ _

theorem yields_single {text : List Char} (h : Writing.of text = .single)
    (hrest : StartsToken rest) :
    Yields parent count rest
      ('\'' :: (lines singleChar (parent + 2) false text ++ closing (parent + 2) text ++ ['\''] ++
        '\n' :: (blanks count ++ rest))) [.scalar (String.ofList text) .quoted] := by
  refine yields_quoted (.inl rfl) hrest fun index line column hcolumn => ?_
  have hlength := length_le_lines single_char_ne_nil (parent + 2) false text
  have hread := Quoted.read_single
    (by simp only [List.length_cons, List.length_append]; omega :
      text.length < ('\'' :: (lines singleChar (parent + 2) false text ++
        closing (parent + 2) text ++ ['\''] ++ '\n' :: (blanks count ++ rest))).length + 1)
    (suitable_of_single h) (by omega : parent + 2 ≠ 0) hcolumn
    (by simp : ('\n' :: (blanks count ++ rest)).head? ≠ some '\'') [] index line
  simpa using hread

theorem yields_double (text : List Char) (hrest : StartsToken rest) :
    Yields parent count rest
      ('"' :: (text.flatMap escape ++ ['"'] ++ '\n' :: (blanks count ++ rest)))
      [.scalar (String.ofList text) .quoted] := by
  refine yields_quoted (.inr rfl) hrest fun index line column hcolumn => ?_
  have hlength := length_le_escapes text
  obtain ⟨index', column', hread⟩ := Quoted.read_double
    (by simp only [List.length_cons, List.length_append]; omega :
      text.length < ('"' :: (text.flatMap escape ++ ['"'] ++
        '\n' :: (blanks count ++ rest))).length + 1) hcolumn [] index line
  exact ⟨index', line, column', by simpa using hread⟩

theorem lines_last (indent : Nat) (fresh : Bool) {text : List Char} (hnonempty : text ≠ []) :
    (lines (fun c => [c]) indent fresh text).getLast? = text.getLast? := by
  induction text generalizing fresh with
  | nil => exact absurd rfl hnonempty
  | cons c text ih =>
      rw [lines]
      by_cases hend : text = []
      · rw [hend]
        split <;> simp [lines]
      · have hmore : text.getLast? = some (text.getLast hend) := List.getLast?_eq_some_getLast hend
        split
        · rw [List.getLast?_cons, ih true hend, List.getLast?_cons]
        · rw [List.getLast?_append, ih false hend, List.getLast?_cons, hmore]
          rfl

/-- A literal text ends its last line, unless the text does. -/
theorem end_literal {text : List Char} (h : Writing.of text = .literal) (hnonempty : text ≠ [])
    (indent : Nat) :
    endLine (' ' :: render indent text) =
      ' ' :: '|' :: (hints text ++ '\n' :: (lines (fun c => [c]) indent true text ++
        Block.ending text)) := by
  have hlast : (' ' :: render indent text).getLast? = text.getLast? := by
    have hsplit : ' ' :: render indent text =
        (' ' :: '|' :: hints text ++ ['\n']) ++ lines (fun c => [c]) indent true text := by
      rw [render, h]
      simp
    rw [hsplit, List.getLast?_append, lines_last indent true hnonempty,
      List.getLast?_eq_some_getLast hnonempty]
    rfl
  rw [endLine, hlast, Block.ending, render, h]
  cases text.getLast?.any isBreak <;> simp

/-- A text is read as a scalar, however it is written. -/
theorem yields_text (content : String) (hcount : count ≤ parent) (hrest : StartsToken rest) :
    Yields parent count rest (writeMember parent (.text content) ++ (blanks count ++ rest))
      [.scalar content (Writing.of content.toList).style] := by
  have hcontent : String.ofList content.toList = content := String.ofList_toList
  have hmark (c : Char) (hc : isSpace c = false ∧ c ≠ '#' ∧ c ≠ byteOrderMark)
      (written : List Char) : StartsToken (c :: written) := starts_token_cons.mpr hc
  rw [writeMember]
  -- the characters of a text decide how it is written, and so how it is read
  cases h : Writing.of content.toList with
  | plain =>
      have hplain := yields_plain (nonempty_of_plain h) (of_eq_plain h).2 hcount hrest
      have hstart := starts_token_plain (nonempty_of_plain h) (of_eq_plain h).2
        ('\n' :: (blanks count ++ rest))
      rw [end_plain h]
      simpa [hcontent, Writing.style] using yields_blank hstart hplain
  | single =>
      have hsingle : Yields parent count rest _ _ := yields_single h hrest
      rw [hcontent] at hsingle
      rw [end_single h]
      simpa [Writing.style] using yields_blank (hmark '\'' (by decide) _) hsingle
  | double =>
      have hdouble : Yields parent count rest _ _ := yields_double content.toList hrest
      rw [hcontent] at hdouble
      rw [end_double h]
      simpa [Writing.style] using yields_blank (hmark '"' (by decide) _) hdouble
  | literal =>
      have hnonempty : content.toList ≠ [] := List.ne_nil_of_mem (of_eq_literal h).1
      have hspaces := spaces_of_ne_double (show Writing.of content.toList ≠ .double by simp [h])
      have hliteral : Yields parent count rest _ _ :=
        yields_literal hnonempty hspaces hcount hrest
      rw [hcontent] at hliteral
      rw [end_literal h hnonempty]
      simpa [Writing.style] using yields_blank (hmark '|' (by decide) _) hliteral

end Scanner

end Schemata.Yaml
