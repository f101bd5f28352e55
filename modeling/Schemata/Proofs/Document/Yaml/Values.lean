import Schemata.Proofs.Document.Yaml.Characters
import Schemata.Proofs.Document.Yaml.Texts

/-!
# Scanning written values

Every written value is scanned into its tokens, `yields_value`: scalars and empty collections at
once, lists and objects line by line. A line is left where the next one starts, and whether that is
a further entry or the end of the collection shows in its column alone. A document, all of whose
characters are allowed, is scanned into the tokens of its object, `scan_write`.
-/

namespace Schemata.Yaml

open Writing (blanks style)

mutual

/-- Documents whose keys are words and whose lists hold objects. -/
inductive Outlined : Value → Prop where
  | null : Outlined .null
  | flag (value : Bool) : Outlined (.flag value)
  | text (content : String) : Outlined (.text content)
  | list {items : List Value} (h : OutlinedItems items) : Outlined (.list items)
  | object {members : List (String × Value)} (h : OutlinedMembers members) :
      Outlined (.object members)

/-- Objects that are not empty. -/
inductive OutlinedItems : List Value → Prop where
  | nil : OutlinedItems []
  | cons {first : String × Value} {others : List (String × Value)} {rest : List Value}
      (h : OutlinedMembers (first :: others)) (hrest : OutlinedItems rest) :
      OutlinedItems (.object (first :: others) :: rest)

/-- Members whose keys are words. -/
inductive OutlinedMembers : List (String × Value) → Prop where
  | nil : OutlinedMembers []
  | cons {key : String} {value : Value} {rest : List (String × Value)}
      (hkey : Scanner.IsKey key.toList) (h : Outlined value) (hrest : OutlinedMembers rest) :
      OutlinedMembers ((key, value) :: rest)

end

/-- Objects that documents are written from. -/
inductive OutlinedObject : Value → Prop where
  | intro {first : String × Value} {others : List (String × Value)}
      (h : OutlinedMembers (first :: others)) : OutlinedObject (.object (first :: others))

mutual

/-- The tokens of a value after a key. -/
def valueTokens : Value → List Token
  | .null => [.scalar "null" .plain]
  | .flag value => [.scalar (if value then "true" else "false") .plain]
  | .text content => [.scalar content (Writing.of content.toList).style]
  | .list [] => [.flowSequenceStart, .flowSequenceEnd]
  | .list (first :: rest) => itemTokens (first :: rest)
  | .object [] => [.flowMappingStart, .flowMappingEnd]
  | .object (first :: rest) => .blockMappingStart :: (memberTokens (first :: rest) ++ [.blockEnd])

/-- The tokens of the items of a list. -/
def itemTokens : List Value → List Token
  | [] => []
  | item :: rest => .blockEntry :: (valueTokens item ++ itemTokens rest)

/-- The tokens of the members of an object. -/
def memberTokens : List (String × Value) → List Token
  | [] => []
  | (key, value) :: rest =>
    .key :: .scalar key .plain :: .value :: (valueTokens value ++ memberTokens rest)

end

namespace Scanner

variable {rest : List Char} {index line column parent count : Nat} {indent : Int}
  {outer : List Int} {emitted : List Token}

theorem Leads.refl (s : Scanner) : s.Leads s :=
  fun _ hscans => hscans

/-- Lines of a block at the column `parent`, from the first token of the first line to the rest at
the column `count`. -/
def Lines (parent count : Nat) (rest text : List Char) (tokens : List Token) : Prop :=
  ∃ start tail, text = blanks start ++ tail ∧ StartsToken tail ∧ start ≤ parent ∧
    ∀ (index line : Nat) (outer : List Int) (emitted : List Token), ∃ index' line',
      (between true ⟨tail, index, line, start⟩ parent outer emitted).Leads
        (between true ⟨rest, index', line', count⟩ parent outer (tokens.reverse ++ emitted))

theorem lines_none (hcount : count ≤ parent) (hrest : StartsToken rest) :
    Lines parent count rest (blanks count ++ rest) [] :=
  ⟨count, rest, rfl, hrest, hcount, fun index line _ _ => ⟨index, line, Leads.refl _⟩⟩

/-- A word that stands for a scalar of its own is read as one. -/
theorem yields_word {word : List Char} (h : word = "null".toList ∨ word = "true".toList ∨
    word = "false".toList) (hcount : count ≤ parent) (hrest : StartsToken rest) :
    Yields parent count rest (' ' :: (word ++ '\n' :: (blanks count ++ rest)))
      [.scalar (String.ofList word) .plain] := by
  have hnonempty : word ≠ [] := by
    rcases h with rfl | rfl | rfl <;> decide
  have hallowed : Writing.allowsPlain word = true := by
    rcases h with rfl | rfl | rfl <;> decide
  exact yields_blank (starts_token_plain hnonempty hallowed _)
    (yields_plain hnonempty hallowed hcount hrest)

/-- The brackets around a collection. -/
inductive Brackets : Char → Char → Token → Token → Prop where
  | list : Brackets '[' ']' .flowSequenceStart .flowSequenceEnd
  | object : Brackets '{' '}' .flowMappingStart .flowMappingEnd

/-- A scanner right after an opening bracket. -/
def opened (cursor : Cursor) (indent : Int) (outer : List Int) (emitted : List Token) : Scanner :=
  { between true cursor indent outer emitted with outerPossible := [none] }

/-- Brackets without content are two tokens. -/
theorem yields_brackets {opening closing : Char} {start stop : Token}
    (h : Brackets opening closing start stop) (hrest : StartsToken rest) :
    Yields parent count rest (' ' :: opening :: closing :: '\n' :: (blanks count ++ rest))
      [start, stop] := by
  have hlength : (blanks count ++ rest).length + 1 <
      (closing :: '\n' :: (blanks count ++ rest)).length := by simp
  obtain ⟨below, hbelow⟩ : ∃ below, below = '\n' :: (blanks count ++ rest) := ⟨_, rfl⟩
  rw [← hbelow] at hlength ⊢
  have hopening : StartsToken (opening :: closing :: below) := by
    cases h <;> exact starts_token_cons.mpr ⟨rfl, by decide, by decide⟩
  have hclosing : StartsToken (closing :: below) := by
    cases h <;> exact starts_token_cons.mpr ⟨rfl, by decide, by decide⟩
  refine yields_blank hopening fun index line column outer emitted hcolumn => ?_
  have hopen : (between false ⟨opening :: closing :: below, index, line, column⟩ parent outer
      emitted).readToken =
      some (opened ⟨closing :: below, index + 1, line, column + 1⟩ parent outer
        (start :: emitted)) := by
    have hmark := at_mark_of_column (opening :: closing :: below) index line
      (by omega : column ≠ 0)
    cases h <;>
      simp [readToken, between, hmark, openFlow, savePossible, emit, opened, Cursor.advance]
  have hclose : (opened ⟨closing :: below, index + 1, line, column + 1⟩ parent outer
      (start :: emitted)).readToken =
      some (between false ⟨below, index + 2, line, column + 2⟩ parent outer
        (stop :: start :: emitted)) := by
    have hmark := at_mark_of_column (closing :: below) (index + 1) line (by omega : column + 1 ≠ 0)
    cases h <;>
      simp [readToken, between, hmark, closeFlow, dropPossible, emit, opened, Cursor.advance]
  have hstart : start ≠ .streamEnd ∧ stop ≠ .streamEnd := by
    cases h <;> simp
  have hfirst := step_of_token hopen hopening (by simp only [between]; omega) rfl rfl
  have hsecond := step_of_token hclose hclosing (by simp only [opened, between]; omega) rfl rfl
  subst hbelow
  obtain ⟨index', line', hline⟩ := leads_line hrest hsecond (by simp [hstart]) hlength
  refine ⟨index', line', (leads_of_step hfirst ?_ ?_).trans hline⟩
  · simp [opened, between, hstart]
  · simp [opened, between]

theorem starts_apart_member (indent : Nat) (value : Value) (rest : List Char) :
    startsApart (writeMember indent value ++ rest) = true := by
  cases value with
  | null => rfl
  | flag value => cases value <;> rfl
  | text content =>
      rw [writeMember, endLine]
      split <;> rfl
  | list items => cases items <;> simp [writeMember, startsApart, isSpace, isGap, isBreak]
  | object members => cases members <;> simp [writeMember, startsApart, isSpace, isGap, isBreak]

theorem write_members_lead (lead : List Char) (indent : Nat) (first : String × Value)
    (others : List (String × Value)) :
    writeMembers lead indent (first :: others) =
      lead ++ writeMembers [] indent (first :: others) := by
  simp [writeMembers]

theorem starts_token_members {key : String} (hkey : IsKey key.toList) (indent : Nat) (value : Value)
    (others : List (String × Value)) (rest : List Char) :
    StartsToken (writeMembers [] indent ((key, value) :: others) ++ rest) := by
  rw [writeMembers, List.nil_append, List.append_assoc, List.append_assoc]
  exact hkey.starts_token _

/-- A first member is a key and its value, and the lines below it go on with the block. -/
theorem Lines.leads_members {key : String} {value : Value} {others : List (String × Value)}
    (hkey : IsKey key.toList)
    (hvalue : ∀ (count : Nat) (rest : List Char), count ≤ column → StartsToken rest →
      Yields column count rest (writeMember column value ++ (blanks count ++ rest))
        (valueTokens value))
    (h : Lines column count rest
      (writeMembers (blanks column) column others ++ (blanks count ++ rest)) (memberTokens others))
    {outer' : List Int} {emitted' : List Token}
    (hopens : Opens column indent outer emitted outer' emitted') (index line : Nat) :
    ∃ index' line',
      (between true ⟨writeMembers [] column ((key, value) :: others) ++ (blanks count ++ rest),
          index, line, column⟩ indent outer emitted).Leads
        (between true ⟨rest, index', line', count⟩ column outer'
          ((memberTokens ((key, value) :: others)).reverse ++ emitted')) := by
  obtain ⟨start, tail, heq, hstart, hle, hlines⟩ := h
  have hapart := starts_apart_member column value (blanks start ++ tail)
  have hwritten : writeMembers [] column ((key, value) :: others) ++ (blanks count ++ rest) =
      key.toList ++ ':' :: (writeMember column value ++ (blanks start ++ tail)) := by
    rw [← heq, writeMembers]
    simp
  have hleads : (between true ⟨key.toList ++ ':' ::
      (writeMember column value ++ (blanks start ++ tail)), index, line, column⟩ indent outer
        emitted).Leads _ := leads_key hkey hapart hopens
  rw [String.ofList_toList] at hleads
  obtain ⟨index₁, line₁, hfirst⟩ := hvalue start tail hle hstart (index + key.toList.length + 1)
    line (column + key.toList.length + 1) outer' (.value :: .scalar key .plain :: .key :: emitted')
    (by omega)
  obtain ⟨index₂, line₂, hothers⟩ := hlines index₁ line₁ outer'
    ((valueTokens value).reverse ++ .value :: .scalar key .plain :: .key :: emitted')
  have htokens : (memberTokens ((key, value) :: others)).reverse ++ emitted' =
      (memberTokens others).reverse ++
        ((valueTokens value).reverse ++ .value :: .scalar key .plain :: .key :: emitted') := by
    rw [memberTokens]
    simp
  rw [hwritten, htokens]
  exact ⟨index₂, line₂, (hleads.trans hfirst).trans hothers⟩

/-- The block of an object is closed by the line after it. -/
theorem Lines.leads_object {key : String} {value : Value} {others : List (String × Value)}
    (hkey : IsKey key.toList)
    (hvalue : ∀ (count : Nat) (rest : List Char), count ≤ column → StartsToken rest →
      Yields column count rest (writeMember column value ++ (blanks count ++ rest))
        (valueTokens value))
    (h : Lines column count rest
      (writeMembers (blanks column) column others ++ (blanks count ++ rest)) (memberTokens others))
    (hindent : indent < column) (hcount : count < column) (hrest : StartsToken rest)
    (outer : List Int) (emitted : List Token) (index line : Nat) :
    ∃ index' line',
      (between true ⟨writeMembers [] column ((key, value) :: others) ++ (blanks count ++ rest),
          index, line, column⟩ indent outer emitted).Leads
        (between true ⟨rest, index', line', count⟩ indent outer
          ((valueTokens (.object ((key, value) :: others))).reverse ++ emitted)) := by
  -- a line further out closes the block before its own token is read
  have hopens : Opens column indent outer emitted _ _ := .enter hindent
  obtain ⟨index', line', hmembers⟩ := h.leads_members hkey hvalue hopens index line
  have hclose := hmembers.trans (leads_close hrest (by omega))
  refine ⟨index', line', ?_⟩
  rw [valueTokens]
  simpa using hclose

mutual

/-- Every value after a key is scanned into its tokens. -/
theorem yields_value {value : Value} (h : Outlined value) {parent count : Nat} {rest : List Char}
    (hcount : count ≤ parent) (hrest : StartsToken rest) :
    Yields parent count rest (writeMember parent value ++ (blanks count ++ rest))
      (valueTokens value) := by
  cases h with
  | null => exact yields_word (.inl rfl) hcount hrest
  | flag value =>
      cases value with
      | false => exact yields_word (.inr (.inr rfl)) hcount hrest
      | true => exact yields_word (.inr (.inl rfl)) hcount hrest
  | text content => exact yields_text content hcount hrest
  | list hitems =>
      rename_i items
      have hlines := lines_items hitems hcount hrest
      cases items with
      | nil => exact yields_brackets .list hrest
      | cons first others =>
          intro index line column outer emitted hcolumn
          obtain ⟨start, tail, heq, hstart, -, hleads⟩ := hlines
          obtain ⟨index', line', hitem⟩ := hleads (index + 1 + start) (line + 1) outer emitted
          refine ⟨index', line', ?_⟩
          rw [writeMember, valueTokens, List.cons_append, heq]
          · exact (leads_feed hstart start).trans hitem
          · exact nofun
  | object hmembers =>
      cases hmembers with
      | nil => exact yields_brackets .object hrest
      | cons hkey hvalue hothers =>
          rename_i key value others
          intro index line column outer emitted hcolumn
          have hlines := lines_members hothers (by omega : count ≤ parent + 2) hrest
          obtain ⟨index', line', hobject⟩ := hlines.leads_object hkey
            (fun count rest hcount hrest => yields_value hvalue hcount hrest)
            (by omega : (parent : Int) < (parent + 2 : Nat)) (by omega) hrest outer emitted
            (index + 1 + (parent + 2)) (line + 1)
          refine ⟨index', line', ?_⟩
          rw [writeMember, write_members_lead, List.cons_append, List.append_assoc]
          · exact (leads_feed (starts_token_members hkey _ _ _ _) (parent + 2)).trans hobject
          · exact nofun

/-- The items of a list are scanned line by line. -/
theorem lines_items {items : List Value} (h : OutlinedItems items) {parent count : Nat}
    {rest : List Char} (hcount : count ≤ parent) (hrest : StartsToken rest) :
    Lines parent count rest (writeItems parent items ++ (blanks count ++ rest))
      (itemTokens items) := by
  cases h with
  | nil => exact lines_none hcount hrest
  | cons hmembers hitems =>
      cases hmembers with
      | cons hkey hvalue hothers =>
          rename_i others items key value
          -- the line below the item is a further item or the rest, and closes its block either way
          obtain ⟨start, tail, heq, hstart, hle, hlines⟩ := lines_items hitems hcount hrest
          have hmembers := starts_token_members hkey (parent + 2) value others
            (blanks start ++ tail)
          refine ⟨parent, '-' :: ' ' :: (writeMembers [] (parent + 2) ((key, value) :: others) ++
            (blanks start ++ tail)), ?_, ?_, Nat.le_refl _, fun index line outer emitted => ?_⟩
          · rw [← heq, writeItems, writeItem, write_members_lead]
            · simp
            · exact nofun
          · exact starts_token_cons.mpr ⟨rfl, by decide, by decide⟩
          · have hbelow := lines_members hothers (by omega : start ≤ parent + 2) hstart
            obtain ⟨index₁, line₁, hobject⟩ := hbelow.leads_object hkey
              (fun count rest hcount hrest => yields_value hvalue hcount hrest)
              (by omega : (parent : Int) < (parent + 2 : Nat)) (by omega) hstart outer
              (.blockEntry :: emitted) (index + 2) line
            obtain ⟨index₂, line₂, hrest⟩ := hlines index₁ line₁ outer
              ((valueTokens (.object ((key, value) :: others))).reverse ++ .blockEntry :: emitted)
            refine ⟨index₂, line₂, ?_⟩
            have hitem := ((leads_dash hmembers).trans hobject).trans hrest
            simpa [itemTokens] using hitem

/-- The members of an object are scanned line by line. -/
theorem lines_members {members : List (String × Value)} (h : OutlinedMembers members)
    {parent count : Nat} {rest : List Char} (hcount : count ≤ parent) (hrest : StartsToken rest) :
    Lines parent count rest (writeMembers (blanks parent) parent members ++ (blanks count ++ rest))
      (memberTokens members) := by
  cases h with
  | nil => exact lines_none hcount hrest
  | cons hkey hvalue hothers =>
      rename_i key value others
      have hlines := lines_members hothers hcount hrest
      refine ⟨parent, writeMembers [] parent ((key, value) :: others) ++ (blanks count ++ rest), ?_,
        starts_token_members hkey _ _ _ _, Nat.le_refl _, fun index line outer emitted => ?_⟩
      · rw [write_members_lead, List.append_assoc]
      · exact hlines.leads_members hkey
          (fun count rest hcount hrest => yields_value hvalue hcount hrest) (.stay rfl) index line

end

end Scanner

theorem allowed_end_line {line : List Char} (h : line.all isAllowed = true) :
    (endLine line).all isAllowed = true := by
  rw [endLine]
  split
  · exact h
  · rw [List.all_append, h]
    rfl

theorem allowed_key {key : List Char} (h : Scanner.IsKey key) : key.all isAllowed = true := by
  rw [List.all_eq_true]
  intro c hc
  have hchar := h.chars c hc
  simp only [Scanner.isKeyChar, Char.isAlpha, Char.isUpper, Char.isLower, Bool.or_eq_true,
    Bool.and_eq_true, decide_eq_true_eq, beq_iff_eq, ge_iff_le, UInt32.le_iff_toNat_le] at hchar
  rcases hchar with (hupper | hlower) | rfl
  · have hbounds : 65 ≤ c.toNat ∧ c.toNat ≤ 90 := hupper
    simp only [isAllowed, Bool.or_eq_true, Bool.and_eq_true, decide_eq_true_eq]
    omega
  · have hbounds : 97 ≤ c.toNat ∧ c.toNat ≤ 122 := hlower
    simp only [isAllowed, Bool.or_eq_true, Bool.and_eq_true, decide_eq_true_eq]
    omega
  · rfl

mutual

/-- All characters of a written value may stand in a document. -/
theorem allowed_value {value : Value} (h : Outlined value) (indent : Nat) :
    (writeMember indent value).all isAllowed = true := by
  cases h with
  | null => rfl
  | flag value => cases value <;> rfl
  | text content =>
      refine allowed_end_line ?_
      rw [List.all_cons, Writing.allowed_render]
      rfl
  | list hitems =>
      rename_i items
      have hall := allowed_items hitems indent
      cases items with
      | nil => rfl
      | cons first rest =>
          rw [writeMember]
          · exact hall
          · exact nofun
  | object hmembers =>
      rename_i members
      have hall := allowed_members hmembers (indent + 2) (Writing.allowed_blanks (indent + 2))
      cases members with
      | nil => rfl
      | cons first rest =>
          rw [writeMember]
          · exact hall
          · exact nofun

theorem allowed_items {items : List Value} (h : OutlinedItems items) (indent : Nat) :
    (writeItems indent items).all isAllowed = true := by
  cases h with
  | nil => rfl
  | cons hmembers hitems =>
      have hlead : (Writing.blanks indent ++ ['-'] ++ [' ']).all isAllowed = true := by
        rw [List.all_append, List.all_append, Writing.allowed_blanks]
        rfl
      rw [writeItems, writeItem]
      · rw [List.all_append, allowed_members hmembers (indent + 2) hlead,
          allowed_items hitems indent]
        rfl
      · exact nofun

theorem allowed_members {members : List (String × Value)} (h : OutlinedMembers members)
    (indent : Nat) {lead : List Char} (hlead : lead.all isAllowed = true) :
    (writeMembers lead indent members).all isAllowed = true := by
  cases h with
  | nil => rfl
  | cons hkey hvalue hothers =>
      rw [writeMembers]
      simp only [List.all_append, List.all_cons, hlead, allowed_key hkey,
        allowed_value hvalue indent,
        allowed_members hothers indent (Writing.allowed_blanks indent)]
      rfl

end

/-- The document of an object is scanned into the tokens of the object. -/
theorem scan_write {value : Value} (h : OutlinedObject value) :
    scan (write value).toList = valueTokens value ++ [.streamEnd] := by
  obtain ⟨h⟩ := h
  have hallowed := allowed_members h 0 (show [].all isAllowed = true from rfl)
  cases h with
  | cons hkey hvalue hothers =>
      rename_i others key value
      have hstart := Scanner.starts_token_members hkey 0 value others []
      rw [List.append_nil] at hstart
      have hmark : (writeMembers [] 0 ((key, value) :: others)).head? ≠ some byteOrderMark :=
        fun hhead => (hstart _ hhead).2.2 rfl
      have hlines : Scanner.Lines 0 0 [] _ _ :=
        Scanner.lines_members hothers (Nat.le_refl 0) (by simp [Scanner.StartsToken])
      have hopens : Scanner.Opens 0 (-1) [] [] [-1] [.blockMappingStart] := .enter (by decide)
      obtain ⟨index, line, hleads⟩ := hlines.leads_members hkey
        (fun count rest hcount hrest => Scanner.yields_value hvalue hcount hrest) hopens 0 0
      have hscans := hleads _ Scanner.scans_end
      have hnone : blanks 0 ++ [] = [] := rfl
      rw [hnone, List.append_nil] at hscans
      have hrun : Scanner.run ((writeMembers [] 0 ((key, value) :: others)).length + 2) _ = _ :=
        hscans.run_eq (by simp [Scanner.between])
      rw [write, String.toList_ofList, scan, if_neg hmark]
      simp only [hallowed, if_true]
      refine hrun.trans ?_
      simp [valueTokens]

end Schemata.Yaml
