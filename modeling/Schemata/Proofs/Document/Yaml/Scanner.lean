import Schemata.Document.Yaml.Scanner
import Schemata.Proofs.Document.Yaml.BlockScalar
import Schemata.Proofs.Document.Yaml.Plain
import Schemata.Proofs.Document.Yaml.Quoted

/-!
# Scanning between entries

A scan is followed from one place between two tokens of a block to the next, where no key is in
sight: `between`. `Leads` says that what is scanned from one such place is what is scanned from
another, later one; blocks that a later line closes may be taken as closed at once, `leads_close`.
-/

namespace Schemata.Yaml.Scanner

open Writing (blanks blanks_succ length_blanks isOpening)

/-- The steps from a scanner to the end, and all tokens there. -/
inductive Scans : Scanner → List Token → Prop where
  | stop {s next : Scanner} (h : s.step = some next)
      (hend : next.emitted.head? = some .streamEnd) : Scans s next.emitted.reverse
  | step {s next : Scanner} {tokens : List Token} (h : s.step = some next)
      (hend : next.emitted.head? ≠ some .streamEnd)
      (hlength : next.cursor.rest.length < s.cursor.rest.length) (hrest : Scans next tokens) :
      Scans s tokens

/-- Every step takes some of the text, so the text bounds the steps. -/
theorem Scans.run_eq {s : Scanner} {tokens : List Token} (h : Scans s tokens) {fuel : Nat}
    (hfuel : s.cursor.rest.length < fuel) : run fuel s = tokens := by
  induction h generalizing fuel with
  | stop h hend =>
      obtain ⟨fuel, rfl⟩ := Nat.exists_eq_add_of_le' (show 1 ≤ fuel by omega)
      simp [run, h, hend]
  | step h hend hlength hrest ih =>
      obtain ⟨fuel, rfl⟩ := Nat.exists_eq_add_of_le' (show 1 ≤ fuel by omega)
      simp only [run, h, hend, if_false]
      exact ih (by omega)

/-- Whether the tokens that are scanned from one place are those from another. -/
def Leads (s next : Scanner) : Prop :=
  ∀ tokens, Scans next tokens → Scans s tokens

theorem Leads.trans {first second third : Scanner} (h : first.Leads second)
    (hnext : second.Leads third) : first.Leads third :=
  fun tokens hscans => h tokens (hnext tokens hscans)

theorem leads_of_step {s next : Scanner} (h : s.step = some next)
    (hend : next.emitted.head? ≠ some .streamEnd)
    (hlength : next.cursor.rest.length < s.cursor.rest.length) : s.Leads next :=
  fun _ hscans => .step h hend hlength hscans

/-- Two places lead to the same tokens when the same step leaves them. -/
theorem leads_of_step_eq {s next : Scanner} (h : s.step = next.step)
    (hlength : next.cursor.rest.length ≤ s.cursor.rest.length) : s.Leads next := by
  intro tokens hscans
  cases hscans with
  | stop hstep hend => exact .stop (h.trans hstep) hend
  | step hstep hend hless hrest =>
      exact .step (h.trans hstep) hend (Nat.lt_of_lt_of_le hless hlength) hrest

/-- A scanner between two tokens of a block; `outer` are the columns around the block. -/
def between (keyAllowed : Bool) (cursor : Cursor) (indent : Int) (outer : List Int)
    (emitted : List Token) : Scanner where
  cursor
  indent
  outerIndents := outer
  keyAllowed
  emitted
  count := emitted.length

/-- Whether a token may start here. -/
def StartsToken (rest : List Char) : Prop :=
  ∀ c ∈ rest.head?, isSpace c = false ∧ c ≠ '#' ∧ c ≠ byteOrderMark

theorem StartsToken.dark {rest : List Char} (h : StartsToken rest) : StartsDark rest :=
  fun c hc => (h c hc).1

variable {rest : List Char} {index line column : Nat} {allowed : Bool} {indent : Int}
  {outer : List Int} {emitted : List Token}

/-- Blanks before a token are passed over. -/
theorem seek_blanks (h : StartsToken rest) (inFlow : Bool) (fuel count : Nat) :
    seek inFlow (fuel + 1) ⟨blanks count ++ rest, index, line, column⟩ allowed =
      (⟨rest, index + count, line, column + count⟩, allowed) := by
  have hmark : (⟨blanks count ++ rest, index, line, column⟩ : Cursor).sees (· == byteOrderMark) =
      false := by
    cases count with
    | succ count => rfl
    | zero =>
        cases rest with
        | nil => rfl
        | cons c rest => simpa [Cursor.sees, blanks] using (h c rfl).2.2
  have hblanks (p : Char → Bool) (hp : p ' ' = true)
      (hdark : ∀ c, isSpace c = false → p c = false) :
      (blanks count ++ rest).takeWhile p = blanks count := by
    rw [List.takeWhile_append_of_pos fun c hc => by rw [List.eq_of_mem_replicate hc, hp]]
    cases rest with
    | nil => simp
    | cons c rest => simp [hdark c (h c rfl).1]
  have hskip (p : Char → Bool) (hp : p ' ' = true)
      (hdark : ∀ c, isSpace c = false → p c = false) :
      Cursor.skipWhile ⟨blanks count ++ rest, index, line, column⟩ p =
        ⟨rest, index + count, line, column + count⟩ := by
    rw [Cursor.skipWhile, hblanks p hp hdark, Cursor.advance_append, length_blanks]
  have hcomment :
      (⟨rest, index + count, line, column + count⟩ : Cursor).sees (· == '#') = false := by
    cases rest with
    | nil => rfl
    | cons c rest => simpa [Cursor.sees] using (h c rfl).2.1
  have hdark (c : Char) (hc : isSpace c = false) :
      (c == ' ' || ((inFlow || !allowed) && c == '\t')) = false := by
    simp [isSpace, isGap] at hc
    simp [hc]
  rw [seek]
  simp only [hmark, Bool.and_false, Bool.false_eq_true, if_false]
  rw [hskip _ rfl hdark]
  simp [hcomment, Cursor.sees_break_of_dark h.dark]

/-- A line feed outside brackets allows a key. -/
theorem seek_feed (fuel : Nat) :
    seek false (fuel + 1) ⟨'\n' :: rest, index, line, column⟩ allowed =
      seek false fuel ⟨rest, index + 1, line + 1, 0⟩ true := by
  have hmark : (⟨'\n' :: rest, index, line, column⟩ : Cursor).sees (· == byteOrderMark) = false :=
    rfl
  have hskip : Cursor.skipWhile ⟨'\n' :: rest, index, line, column⟩
      (fun c => c == ' ' || ((false || !allowed) && c == '\t')) =
      ⟨'\n' :: rest, index, line, column⟩ := by
    simp [Cursor.skipWhile, Cursor.advance]
  have hcomment : (⟨'\n' :: rest, index, line, column⟩ : Cursor).sees (· == '#') = false := rfl
  have hbreak : (⟨'\n' :: rest, index, line, column⟩ : Cursor).sees isBreak = true := rfl
  rw [seek]
  simp only [hmark, Bool.and_false, Bool.false_eq_true, if_false, hskip, hcomment, hbreak, if_true,
    Bool.not_false, Bool.or_true, Cursor.next_line_break (.inl rfl)]

/-- Seeking, closing blocks and reading a token are one step. -/
theorem step_between (cursor : Cursor) :
    (between allowed cursor indent outer emitted).step =
      (((between (seek false (cursor.rest.length + 1) cursor allowed).2
          (seek false (cursor.rest.length + 1) cursor allowed).1 indent outer emitted).closeBlocks
        (seek false (cursor.rest.length + 1) cursor allowed).1.column).readToken).bind dropStale :=
  rfl

/-- A step from the blanks before a token is a step from the token. -/
theorem step_blanks (h : StartsToken rest) (count : Nat) :
    (between allowed ⟨blanks count ++ rest, index, line, column⟩ indent outer emitted).step =
      (((between allowed ⟨rest, index + count, line, column + count⟩ indent outer
        emitted).closeBlocks ((column + count : Nat) : Int)).readToken).bind dropStale := by
  rw [step_between, seek_blanks h]

/-- A step from a line feed is a step from the next line. -/
theorem step_feed :
    (between allowed ⟨'\n' :: rest, index, line, column⟩ indent outer emitted).step =
      (between true ⟨rest, index + 1, line + 1, 0⟩ indent outer emitted).step := by
  rw [step_between, step_between, seek_feed]
  rfl

/-- No block is closed where a line stands at the innermost block or further in. -/
theorem close_none (s : Scanner) {column : Int} (h : s.indent ≤ column) :
    s.closeBlocks column = s := by
  have hout : ¬ column < s.indent := by omega
  rw [closeBlocks]
  split
  · rfl
  · cases s.outerIndents with
    | nil => rfl
    | cons around outer => exact if_neg hout

/-- A block is closed where a line stands further out. -/
theorem close_one (cursor : Cursor) {column around : Int} (h : column < indent) :
    (between allowed cursor indent (around :: outer) emitted).closeBlocks column =
      (between allowed cursor around outer (.blockEnd :: emitted)).closeBlocks column :=
  if_pos h

/-- A block that a token closes may be taken as closed. -/
theorem leads_close (h : StartsToken rest) {around : Int} (hindent : (column : Int) < indent) :
    (between allowed ⟨rest, index, line, column⟩ indent (around :: outer) emitted).Leads
      (between allowed ⟨rest, index, line, column⟩ around outer (.blockEnd :: emitted)) := by
  have hstep (indent : Int) (outer : List Int) (emitted : List Token) :
      (between allowed ⟨rest, index, line, column⟩ indent outer emitted).step = _ := step_blanks h 0
  -- the block is closed within the step, so no step leads from one place to the other
  refine leads_of_step_eq ?_ (Nat.le_refl _)
  rw [hstep, hstep, Nat.add_zero, Nat.add_zero, close_one _ hindent]

/-- Blanks before a token may be taken as read. -/
theorem leads_blanks (h : StartsToken rest) (count : Nat) :
    (between allowed ⟨blanks count ++ rest, index, line, column⟩ indent outer emitted).Leads
      (between allowed ⟨rest, index + count, line, column + count⟩ indent outer emitted) := by
  refine leads_of_step_eq ?_ (by simp [between])
  have hzero : (between allowed ⟨rest, index + count, line, column + count⟩ indent outer
      emitted).step = _ := step_blanks h 0
  rw [step_blanks h]
  exact hzero.symm

/-- At the end of a line the next line may be taken as reached, up to its token. -/
theorem leads_feed (h : StartsToken rest) (count : Nat) :
    (between allowed ⟨'\n' :: (blanks count ++ rest), index, line, column⟩ indent outer
      emitted).Leads
      (between true ⟨rest, index + 1 + count, line + 1, count⟩ indent outer emitted) := by
  have hfeed : (between allowed ⟨'\n' :: (blanks count ++ rest), index, line, column⟩ indent outer
      emitted).Leads (between true ⟨blanks count ++ rest, index + 1, line + 1, 0⟩ indent outer
        emitted) := leads_of_step_eq step_feed (by simp [between])
  have hblanks : (between true ⟨blanks count ++ rest, index + 1, line + 1, 0⟩ indent outer
      emitted).Leads _ := leads_blanks h count
  rw [Nat.zero_add] at hblanks
  exact hfeed.trans hblanks

/-- After a step to the end of a line, the next line may be taken as reached. -/
theorem leads_line {s : Scanner} {count : Nat} (hrest : StartsToken rest)
    (h : s.step = some (between allowed ⟨'\n' :: (blanks count ++ rest), index, line, column⟩ indent
      outer emitted)) (hend : emitted.head? ≠ some .streamEnd)
    (hlength : (blanks count ++ rest).length + 1 < s.cursor.rest.length) :
    ∃ index' line', s.Leads (between true ⟨rest, index', line', count⟩ indent outer emitted) :=
  ⟨_, _, (leads_of_step h hend hlength).trans (leads_feed hrest count)⟩

/-- A step from a token that closes no block is what is read there. -/
theorem step_of_token {s next : Scanner} (h : s.readToken = some next)
    (hstart : StartsToken s.cursor.rest) (hindent : s.indent ≤ s.cursor.column)
    (hstale : s.dropStale = some s) (hnext : next.dropStale = some next) : s.step = some next := by
  have hseek : seek s.inFlow (s.cursor.rest.length + 1) s.cursor s.keyAllowed =
      (s.cursor, s.keyAllowed) := seek_blanks hstart s.inFlow s.cursor.rest.length 0
  rw [step]
  simp only [hseek, hstale, Option.bind_eq_bind, Option.bind_some, close_none s hindent, h, hnext]

theorem opening_ne {c d : Char} (h : isOpening c = false) (hd : isOpening d = true) : c ≠ d := by
  rintro rfl
  rw [hd] at h
  cases h

theorem is_indicator_eq (c : Char) :
    isIndicator c = (isOpening c || (c == '?' || c == ':' || c == '-')) := by
  rw [Bool.eq_iff_iff]
  simp [isIndicator, isOpening]
  tauto

/-- A character without a meaning of its own starts a plain scalar. -/
theorem starts_plain_of_not_opening {c : Char} (hspace : isSpace c = false)
    (hopening : isOpening c = false)
    (hapart : ((c == '?' || c == ':' || c == '-') && startsApart rest) = false) :
    startsPlain false c rest = true := by
  cases hmark : c == '?' || c == ':' || c == '-' with
  | true =>
      rw [hmark, Bool.true_and] at hapart
      have hgap : rest.head?.any isGap = false := by
        cases rest with
        | nil => rfl
        | cons d rest => exact is_gap_of_dark hapart
      simp only [Bool.or_eq_true, beq_iff_eq] at hmark
      rcases hmark with (rfl | rfl) | rfl
      · simp [startsPlain, hapart]
      · simp [startsPlain, hapart]
      · simp [startsPlain, hgap]
  | false => simp [startsPlain, hspace, is_indicator_eq, hopening, hmark]

/-- A plain scalar is read where nothing else starts. -/
theorem read_token_plain {s : Scanner} {c : Char} (hrest : s.cursor.rest = c :: rest)
    (hflow : s.inFlow = false) (hdashes : s.cursor.atMark '-' = false)
    (hdots : s.cursor.atMark '.' = false) (hspace : isSpace c = false)
    (hopening : isOpening c = false)
    (hapart : ((c == '?' || c == ':' || c == '-') && startsApart rest) = false) :
    s.readToken = s.plain := by
  have hstarts := starts_plain_of_not_opening hspace hopening hapart
  have hmark (d : Char) (hd : d = '?' ∨ d = ':' ∨ d = '-') :
      ¬ (c = d ∧ startsApart rest = true) := by
    rintro ⟨rfl, h⟩
    rcases hd with rfl | rfl | rfl <;> simp [h] at hapart
  have hne (d : Char) (hd : isOpening d = true) : c ≠ d := opening_ne hopening hd
  rw [readToken, hrest]
  simp only [hdashes, hdots, hflow, hstarts, hmark, hne '%' rfl, hne '[' rfl, hne '{' rfl,
    hne ']' rfl, hne '}' rfl, hne ',' rfl, hne '*' rfl, hne '&' rfl, hne '!' rfl, hne '|' rfl,
    hne '>' rfl, hne '\'' rfl, hne '"' rfl, Bool.false_or, Bool.false_eq_true, and_false, false_and,
    or_self, if_false, if_true, true_or, or_true]

theorem at_mark_of_column (rest : List Char) (index line : Nat) (hcolumn : column ≠ 0) (c : Char) :
    (⟨rest, index, line, column⟩ : Cursor).atMark c = false := by
  simp [Cursor.atMark, hcolumn]

theorem at_mark_of_ne {c d : Char} (h : d ≠ c) (rest : List Char) (index line column : Nat) :
    (⟨d :: rest, index, line, column⟩ : Cursor).atMark c = false := by
  rcases rest with _ | ⟨x, _ | ⟨y, rest⟩⟩ <;> simp [Cursor.atMark, h]

/-- A character of keys. -/
def isKeyChar (c : Char) : Bool := c.isAlpha || c == '_'

/-- A text that documents may have as a key. -/
structure IsKey (key : List Char) : Prop where
  nonempty : key ≠ []
  chars : ∀ c ∈ key, isKeyChar c = true
  length : key.length ≤ 1024

theorem key_char_ne {c d : Char} (h : isKeyChar c = true) (hd : isKeyChar d = false) : c ≠ d := by
  rintro rfl
  rw [hd] at h
  cases h

theorem key_char_dark {c : Char} (h : isKeyChar c = true) : isSpace c = false := by
  have hne (d : Char) (hd : isKeyChar d = false) : c ≠ d := key_char_ne h hd
  simp [isSpace, isGap, isBreak, hne ' ' rfl, hne '\t' rfl, hne '\n' rfl, hne '\r' rfl,
    hne '\u0085' rfl, hne '\u2028' rfl, hne '\u2029' rfl]

theorem key_char_not_opening {c : Char} (h : isKeyChar c = true) : isOpening c = false := by
  cases hopening : isOpening c with
  | false => rfl
  | true =>
      simp only [isOpening, List.contains_eq_mem, List.mem_cons, List.not_mem_nil, or_false,
        decide_eq_true_eq] at hopening
      rcases hopening with rfl | rfl | rfl | rfl | rfl | rfl | rfl | rfl | rfl | rfl | rfl | rfl |
        rfl | rfl | rfl | rfl <;> exact absurd h (by decide)

theorem IsKey.starts_token {key : List Char} (h : IsKey key) (rest : List Char) :
    StartsToken (key ++ rest) := by
  obtain ⟨c, key, rfl⟩ := List.exists_cons_of_ne_nil h.nonempty
  intro d hd
  obtain rfl : c = d := by simpa using hd
  have hc : isKeyChar c = true := h.chars c (by simp)
  exact ⟨key_char_dark hc, key_char_ne hc rfl, key_char_ne hc rfl⟩

/-- A key is read up to its colon. -/
theorem run_key {key : List Char} (hkey : ∀ c ∈ key, isKeyChar c = true)
    (hapart : startsApart rest = true) : Plain.run false (key ++ ':' :: rest) = some key := by
  induction key with
  | nil => simp [Plain.run, isSpace, isGap, isBreak, hapart]
  | cons c key ih =>
      have hc : isKeyChar c = true := hkey c (by simp)
      have hcolon : c ≠ ':' := key_char_ne hc rfl
      rw [List.cons_append, Plain.run, ih fun d hd => hkey d (by simp [hd])]
      simp [key_char_dark hc, hcolon]

theorem read_key {key : List Char} (h : IsKey key) (hapart : startsApart rest = true)
    (indentation fuel index line column : Nat) :
    Plain.read false indentation (fuel + 1) [] .empty ⟨key ++ ':' :: rest, index, line, column⟩ =
      some
        { text := key
          cursor := ⟨':' :: rest, index + key.length, line, column + key.length⟩ } := by
  obtain ⟨c, chars, hkey⟩ := List.exists_cons_of_ne_nil h.nonempty
  have hc : isKeyChar c = true := h.chars c (by simp [hkey])
  have hmark : (⟨key ++ ':' :: rest, index, line, column⟩ : Cursor).atDocumentMark = false := by
    rw [hkey, List.cons_append, Cursor.atDocumentMark,
      at_mark_of_ne (key_char_ne hc rfl), at_mark_of_ne (key_char_ne hc rfl)]
    rfl
  have hhash : (⟨key ++ ':' :: rest, index, line, column⟩ : Cursor).sees (· == '#') = false := by
    simp [hkey, Cursor.sees, key_char_ne hc (show isKeyChar '#' = false from rfl)]
  have hspace : (⟨':' :: rest, index + key.length, line, column + key.length⟩ : Cursor).sees
      isSpace = false := rfl
  rw [Plain.read]
  simp only [hmark, hhash, Bool.or_self, Bool.false_eq_true, if_false, run_key h.chars hapart,
    Option.bind_eq_bind, Option.bind_some, List.isEmpty_eq_false_iff.mpr h.nonempty,
    Cursor.advance_append, hspace]
  rfl

/-- Whether a key at a column opens a block, or goes on with the innermost one. -/
inductive Opens (column : Nat) (indent : Int) (outer : List Int) (emitted : List Token) :
    List Int → List Token → Prop where
  | stay (h : indent = column) : Opens column indent outer emitted outer emitted
  | enter (h : indent < column) :
      Opens column indent outer emitted (indent :: outer) (.blockMappingStart :: emitted)

/-- A scanner after a key, before the colon. -/
def announced (key rest : List Char) (index line column : Nat) (indent : Int) (outer : List Int)
    (emitted : List Token) : Scanner :=
  { between false ⟨':' :: rest, index + key.length, line, column + key.length⟩ indent outer
      (.scalar (String.ofList key) .plain :: emitted) with
    possible := some
      { required := indent == (column : Int), number := emitted.length, index, line, column } }

/-- A key is not out of reach of its colon. -/
theorem drop_stale_announced {key : List Char} (h : IsKey key) :
    (announced key rest index line column indent outer emitted).dropStale =
      some (announced key rest index line column indent outer emitted) := by
  have hlength : ¬ index + 1024 < index + key.length := by
    have hlong := h.length
    omega
  simp [announced, dropStale, refresh, isStale, between, hlength]

theorem step_key {key : List Char} (h : IsKey key) (hapart : startsApart rest = true)
    (hindent : indent ≤ column) :
    (between true ⟨key ++ ':' :: rest, index, line, column⟩ indent outer emitted).step =
      some (announced key rest index line column indent outer emitted) := by
  obtain ⟨c, chars, hkey⟩ := List.exists_cons_of_ne_nil h.nonempty
  have hc : isKeyChar c = true := h.chars c (by simp [hkey])
  have hne (d : Char) (hd : isKeyChar d = false) : c ≠ d := key_char_ne hc hd
  have hcursor : (between true ⟨key ++ ':' :: rest, index, line, column⟩ indent outer
      emitted).cursor.rest = c :: (chars ++ ':' :: rest) := by
    rw [hkey]
    rfl
  have htoken : (between true ⟨key ++ ':' :: rest, index, line, column⟩ indent outer
      emitted).readToken = (between true ⟨key ++ ':' :: rest, index, line, column⟩ indent outer
        emitted).plain := by
    refine read_token_plain hcursor rfl ?_ ?_ (key_char_dark hc) (key_char_not_opening hc) ?_
    · rw [hkey]
      exact at_mark_of_ne (hne '-' rfl) _ _ _ _
    · rw [hkey]
      exact at_mark_of_ne (hne '.' rfl) _ _ _ _
    · simp [hne '?' rfl, hne ':' rfl, hne '-' rfl]
  have hread := read_key h hapart (indent + 1).toNat (key ++ ':' :: rest).length index line column
  have hplain : (between true ⟨key ++ ':' :: rest, index, line, column⟩ indent outer
      emitted).plain =
      some (announced key rest index line column indent outer emitted) := by
    simp only [plain, savePossible, dropPossible, between, inFlow, Option.any_none,
      Bool.false_eq_true, if_false, if_true, List.isEmpty_nil, Bool.not_true, Bool.not_false,
      Bool.true_and, Option.bind_eq_bind, Option.pure_def, Option.bind_some, hread]
    rfl
  exact step_of_token (htoken.trans hplain) (h.starts_token (':' :: rest)) hindent rfl
    (drop_stale_announced h)

theorem step_colon {key : List Char} (h : IsKey key) (hapart : startsApart rest = true)
    {outer' : List Int} {emitted' : List Token}
    (hopens : Opens column indent outer emitted outer' emitted') :
    (announced key rest index line column indent outer emitted).step =
      some (between false ⟨rest, index + key.length + 1, line, column + key.length + 1⟩ column
        outer' (.value :: .scalar (String.ofList key) .plain :: .key :: emitted')) := by
  have hindent : indent ≤ ((column + key.length : Nat) : Int) := by
    cases hopens <;> omega
  have hstart : StartsToken (':' :: rest) := by
    intro c hc
    obtain rfl : ':' = c := by simpa using hc
    exact ⟨rfl, by decide, by decide⟩
  have htoken : (announced key rest index line column indent outer emitted).readToken =
      (announced key rest index line column indent outer emitted).valueMark := by
    simp [readToken, announced, between, at_mark_of_ne, hapart]
  have hvalue : (announced key rest index line column indent outer emitted).valueMark =
      some (between false ⟨rest, index + key.length + 1, line, column + key.length + 1⟩ column
        outer' (.value :: .scalar (String.ofList key) .plain :: .key :: emitted')) := by
    -- the key token goes before the scalar, the start of a block before both
    have hlater : emitted.length + 1 + 1 - emitted.length = 2 := by omega
    cases hopens with
    | stay h =>
        simp [valueMark, announced, between, insert, openBlock, emit, inFlow, h, Cursor.advance]
    | enter h =>
        simp [valueMark, announced, between, insert, openBlock, emit, inFlow, h, Cursor.advance,
          hlater]
  exact step_of_token (htoken.trans hvalue) hstart hindent (drop_stale_announced h) rfl

/-- A key and its colon are read in two steps. -/
theorem leads_key {key : List Char} (h : IsKey key) (hapart : startsApart rest = true)
    {outer' : List Int} {emitted' : List Token}
    (hopens : Opens column indent outer emitted outer' emitted') :
    (between true ⟨key ++ ':' :: rest, index, line, column⟩ indent outer emitted).Leads
      (between false ⟨rest, index + key.length + 1, line, column + key.length + 1⟩ column outer'
        (.value :: .scalar (String.ofList key) .plain :: .key :: emitted')) := by
  have hindent : indent ≤ column := by
    cases hopens <;> omega
  have hpos := List.length_pos_iff.mpr h.nonempty
  refine (leads_of_step (step_key h hapart hindent) ?_ ?_).trans
    (leads_of_step (step_colon h hapart hopens) ?_ ?_)
  · simp [announced, between]
  · simp only [announced, between, List.length_cons, List.length_append]
    omega
  · simp [between]
  · simp [announced, between]

/-- A dash stands before an item whose first token is on the same line. -/
theorem leads_dash (h : StartsToken rest) :
    (between true ⟨'-' :: ' ' :: rest, index, line, column⟩ column outer emitted).Leads
      (between true ⟨rest, index + 2, line, column + 2⟩ column outer (.blockEntry :: emitted)) := by
  have hstart : StartsToken ('-' :: ' ' :: rest) := by
    intro c hc
    obtain rfl : '-' = c := by simpa using hc
    exact ⟨rfl, by decide, by decide⟩
  have hmark : (⟨'-' :: ' ' :: rest, index, line, column⟩ : Cursor).atMark '-' = false := by
    cases rest <;> simp [Cursor.atMark]
  have htoken : (between true ⟨'-' :: ' ' :: rest, index, line, column⟩ column outer
      emitted).readToken =
      some (between true ⟨' ' :: rest, index + 1, line, column + 1⟩ column outer
        (.blockEntry :: emitted)) := by
    simp [readToken, between, hmark, at_mark_of_ne, startsApart, isSpace, isGap, blockEntry,
      openBlock, inFlow, dropPossible, emit, Cursor.advance]
  have hstep := step_of_token htoken hstart (Int.le_refl _) rfl rfl
  have hdash := leads_of_step hstep (by simp [between]) (by simp [between])
  exact hdash.trans (leads_blanks h 1)

/-- At the end of the text the outermost block is closed. -/
theorem scans_end :
    Scans (between true ⟨[], index, line, 0⟩ 0 [-1] emitted)
      (.streamEnd :: .blockEnd :: emitted).reverse := by
  have htoken : (between true ⟨[], index, line, 0⟩ 0 [-1] emitted).readToken =
      some (between false ⟨[], index, line, 0⟩ (-1) [] (.streamEnd :: .blockEnd :: emitted)) := rfl
  have hstart : StartsToken [] := by simp [StartsToken]
  exact .stop (step_of_token htoken hstart (Int.le_refl _) rfl rfl) rfl

end Schemata.Yaml.Scanner
