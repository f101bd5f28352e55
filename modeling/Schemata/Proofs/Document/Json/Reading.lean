import Mathlib
import Schemata.Document.Json.Decoding
import Schemata.Proofs.Document.Json.Literal
import Schemata.Proofs.Document.Json.Numeral
import Schemata.Proofs.Document.Spelling

/-!
# Reading written JSON

`Written tree text` says that `text` is a way to write `tree`: any white space may stand between
tokens, and a literal may be written with any escapes. Everything that is written so is read as the
tree, `reads`; the reader's fuel is a bound on the length of what it reads. The printers write in
this way, `pretty_written` and `compact_written`.
-/

namespace Schemata.Json

/-- What the reader makes of written scalars. -/
def spelling : Spelling Leaf where
  null := .null
  flag := .flag
  text content := .text (.ok content)
  key name := .text (.ok name)

theorem spelling_faithful : spelling.Faithful dialect where
  null := rfl
  flag _ := rfl
  text _ _ := rfl
  present _ := rfl
  key _ _ := rfl

/-- White space between tokens. -/
abbrev Blank (gap : List Char) : Prop := ∀ c ∈ gap, isSpace c = true

theorem blank_nil : Blank [] := by simp [Blank]

theorem blank_space : Blank [' '] := by simp [Blank, isSpace]

/-- What stands between the parts of a list or an object. -/
def separator (first : Bool) : List Char := if first then [] else [',']

mutual

/-- Ways to write a value. -/
inductive Written : Tree Leaf .value → List Char → Prop where
  | null : Written (.leaf .null) "null".toList
  | flag (value : Bool) : Written (.leaf (.flag value)) (writeFlag value)
  | number {numeral : Numeral} {text : List Char} (h : numeral.Written text) :
      Written (.leaf (.number numeral.value)) text
  | text {pieces : List Piece} {text : List Char} (h : Literal.WrittenPieces pieces text) :
      Written (.leaf (.text (Literal.content pieces))) ('"' :: text)
  | list {items : Tree Leaf .items} {text : List Char} (h : WrittenItems true items text) :
      Written (.list items) ('[' :: text)
  | object {members : Tree Leaf .members} {text : List Char}
      (h : WrittenMembers true members text) : Written (.object members) ('{' :: text)

/-- Ways to write items, with the bracket after them; `first` says that none stands before. -/
inductive WrittenItems : Bool → Tree Leaf .items → List Char → Prop where
  | nil {first : Bool} {gap : List Char} (hgap : Blank gap) :
      WrittenItems first .noItems (gap ++ [']'])
  | cons {first : Bool} {item : Tree Leaf .value} {items : Tree Leaf .items}
      {before gap text rest : List Char} (hbefore : Blank before) (hgap : Blank gap)
      (hitem : Written item text) (hitems : WrittenItems false items rest) :
      WrittenItems first (.item item items) (before ++ (separator first ++ (gap ++ (text ++ rest))))

/-- Ways to write members, with the brace after them. -/
inductive WrittenMembers : Bool → Tree Leaf .members → List Char → Prop where
  | nil {first : Bool} {gap : List Char} (hgap : Blank gap) :
      WrittenMembers first .noMembers (gap ++ ['}'])
  | cons {first : Bool} {pieces : List Piece} {value : Tree Leaf .value}
      {members : Tree Leaf .members} {before gap key middle inner text rest : List Char}
      (hbefore : Blank before) (hgap : Blank gap) (hkey : Literal.WrittenPieces pieces key)
      (hmiddle : Blank middle) (hinner : Blank inner) (hvalue : Written value text)
      (hmembers : WrittenMembers false members rest) :
      WrittenMembers first (.member (.leaf (.text (Literal.content pieces))) value members)
        (before ++ (separator first ++
          (gap ++ '"' :: (key ++ (middle ++ ':' :: (inner ++ (text ++ rest)))))))

end

theorem skip_space_append {gap : List Char} (h : Blank gap) (text : List Char) :
    skipSpace (gap ++ text) = skipSpace text :=
  List.dropWhile_append_of_pos h

theorem skip_space_cons {c : Char} (h : isSpace c = false) (text : List Char) :
    skipSpace (c :: text) = c :: text := by
  simp [skipSpace, h]

/-- No numeral goes on with white space. -/
theorem stops_append {gap rest : List Char} (hgap : Blank gap) (hrest : Numeral.Stops rest) :
    Numeral.Stops (gap ++ rest) := by
  cases gap with
  | nil => exact hrest
  | cons c gap =>
      intro other hother
      obtain rfl : c = other := by simpa using hother
      have hspace : isSpace c = true := hgap c List.mem_cons_self
      simp only [isSpace, Bool.or_eq_true, beq_iff_eq] at hspace
      obtain ((rfl | rfl) | rfl) | rfl := hspace <;> decide

theorem stops_cons {c : Char} (h : c = ',' ∨ c = ']' ∨ c = '}') (rest : List Char) :
    Numeral.Stops (c :: rest) := by
  intro other hother
  obtain rfl : c = other := by simpa using hother
  obtain rfl | rfl | rfl := h <;> decide

/-- What a numeral starts with does not start anything else. -/
theorem numeral_starts {c : Char} (h : c = '-' ∨ (Numeral.digit? c).isSome = true) :
    isSpace c = false ∧ c ∉ ['[', ']', '{', '"', 'n', 't', 'f'] := by
  rcases h with rfl | h
  · decide
  · have hne {other : Char} (hother : (Numeral.digit? other).isSome = false) : c ≠ other :=
      Numeral.ne_of_digit h hother
    constructor
    · simp [isSpace, hne (show (Numeral.digit? ' ').isSome = false by decide),
        hne (show (Numeral.digit? '\n').isSome = false by decide),
        hne (show (Numeral.digit? '\t').isSome = false by decide),
        hne (show (Numeral.digit? '\r').isSome = false by decide)]
    · intro hmem
      simp only [List.mem_cons, List.not_mem_nil, or_false] at hmem
      obtain rfl | rfl | rfl | rfl | rfl | rfl | rfl := hmem <;> exact absurd h (by decide)

/-- A written value starts with a character of its own. -/
theorem Written.starts {value : Tree Leaf .value} {text : List Char} (h : Written value text) :
    ∃ c rest, text = c :: rest ∧ isSpace c = false ∧ c ≠ ']' := by
  cases h with
  | null => exact ⟨'n', _, rfl, rfl, by decide⟩
  | flag value =>
      cases value with
      | true => exact ⟨'t', _, rfl, rfl, by decide⟩
      | false => exact ⟨'f', _, rfl, rfl, by decide⟩
  | number h =>
      obtain ⟨c, rest, rfl, hc⟩ := h.starts
      obtain ⟨hspace, hne⟩ := numeral_starts hc
      exact ⟨c, rest, rfl, hspace, fun heq => hne (by simp [heq])⟩
  | text h => exact ⟨'"', _, rfl, rfl, by decide⟩
  | list h => exact ⟨'[', _, rfl, rfl, by decide⟩
  | object h => exact ⟨'{', _, rfl, rfl, by decide⟩

theorem WrittenItems.length_pos {first : Bool} {items : Tree Leaf .items} {text : List Char}
    (h : WrittenItems first items text) : 0 < text.length := by
  cases h with
  | nil hgap => simp
  | cons hbefore hgap hitem hitems =>
      obtain ⟨c, rest, rfl, -, -⟩ := hitem.starts
      simp only [List.length_append, List.length_cons]
      omega

theorem WrittenMembers.length_pos {first : Bool} {members : Tree Leaf .members}
    {text : List Char} (h : WrittenMembers first members text) : 0 < text.length := by
  cases h with
  | nil hgap => simp
  | cons hbefore hgap hkey hmiddle hinner hvalue hmembers =>
      simp only [List.length_append, List.length_cons]
      omega

/-- What follows an item is not a part of it. -/
theorem WrittenItems.stops {items : Tree Leaf .items} {text : List Char}
    (h : WrittenItems false items text) (rest : List Char) : Numeral.Stops (text ++ rest) := by
  cases h with
  | nil hgap =>
      rw [List.append_assoc]
      exact stops_append hgap (stops_cons (.inr (.inl rfl)) rest)
  | cons hbefore hgap hitem hitems =>
      rw [List.append_assoc]
      exact stops_append hbefore (stops_cons (.inl rfl) _)

/-- What follows the value of a member is not a part of it. -/
theorem WrittenMembers.stops {members : Tree Leaf .members} {text : List Char}
    (h : WrittenMembers false members text) (rest : List Char) : Numeral.Stops (text ++ rest) := by
  cases h with
  | nil hgap =>
      rw [List.append_assoc]
      exact stops_append hgap (stops_cons (.inr (.inr rfl)) rest)
  | cons hbefore hgap hkey hmiddle hinner hvalue hmembers =>
      rw [List.append_assoc]
      exact stops_append hbefore (stops_cons (.inl rfl) _)

/-- A written literal is read as a whole. -/
theorem literal_written {pieces : List Piece} {text : List Char}
    (h : Literal.WrittenPieces pieces text) (rest : List Char) :
    literal (text ++ rest) = (.leaf (.text (Literal.content pieces)), some rest) := by
  rw [literal, Literal.scan_pieces h]
  simp [Literal.denote_closed rest, Literal.content]

/-- A written numeral is read as a whole. -/
theorem value_numeral {numeral : Numeral} {text rest : List Char} (h : numeral.Written text)
    (hrest : Numeral.Stops rest) (fuel : Nat) :
    value (fuel + 1) (text ++ rest) = (.leaf (.number numeral.value), some rest) := by
  have hscan := Numeral.scan_written h hrest
  obtain ⟨c, more, rfl, hc⟩ := h.starts
  obtain ⟨hspace, hne⟩ := numeral_starts hc
  simp only [List.mem_cons, List.not_mem_nil, or_false, not_or] at hne
  rw [List.cons_append] at hscan ⊢
  rw [value, skip_space_cons hspace]
  simp [scalar, hc, hscan, hne]

/-- The reader of items skips what stands before one. -/
theorem items_start {first : Bool} {before gap more : List Char} {c : Char}
    (hbefore : Blank before) (hgap : Blank gap) (hspace : isSpace c = false) (hclose : c ≠ ']')
    (fuel : Nat) :
    items (fuel + 1) first (before ++ (separator first ++ (gap ++ c :: more))) =
      item fuel (c :: more) := by
  have hskip : skipSpace (gap ++ c :: more) = c :: more := by
    rw [skip_space_append hgap, skip_space_cons hspace]
  cases first with
  | true => simp [items, separator, skip_space_append hbefore, hskip, hclose]
  | false =>
      have hcomma : skipSpace (',' :: (gap ++ c :: more)) = ',' :: (gap ++ c :: more) :=
        skip_space_cons rfl _
      simp [items, separator, skip_space_append hbefore, hcomma, hskip, hclose]

/-- The reader of members skips what stands before one and the quote of its key. -/
theorem members_start {first : Bool} {before gap : List Char} (hbefore : Blank before)
    (hgap : Blank gap) (more : List Char) (fuel : Nat) :
    members (fuel + 1) first (before ++ (separator first ++ (gap ++ '"' :: more))) =
      member fuel more := by
  have hskip : skipSpace (gap ++ '"' :: more) = '"' :: more := by
    rw [skip_space_append hgap, skip_space_cons rfl]
  cases first with
  | true => simp [members, separator, skip_space_append hbefore, hskip]
  | false =>
      have hcomma : skipSpace (',' :: (gap ++ '"' :: more)) = ',' :: (gap ++ '"' :: more) :=
        skip_space_cons rfl _
      simp [members, separator, skip_space_append hbefore, hcomma, hskip]

/-- Whether what is written is read back with some fuel, which bounds the length of the text. -/
structure Reads (fuel : Nat) : Prop where
  value {v : Tree Leaf .value} {text gap rest : List Char} (h : Written v text)
    (hfuel : 2 * text.length ≤ fuel + 1) (hgap : Blank gap) (hrest : Numeral.Stops rest) :
    value fuel (gap ++ (text ++ rest)) = (v, some rest)
  items {first : Bool} {all : Tree Leaf .items} {text : List Char} (h : WrittenItems first all text)
    (hfuel : 2 * text.length ≤ fuel) (rest : List Char) :
    items fuel first (text ++ rest) = (all, some rest)
  members {first : Bool} {all : Tree Leaf .members} {text : List Char}
    (h : WrittenMembers first all text) (hfuel : 2 * text.length ≤ fuel) (rest : List Char) :
    members fuel first (text ++ rest) = (all, some rest)

section

variable {fuel : Nat} (hless : ∀ less < fuel, Reads less)
include hless

theorem value_step {v : Tree Leaf .value} {text gap rest : List Char} (h : Written v text)
    (hfuel : 2 * text.length ≤ fuel + 1) (hgap : Blank gap) (hrest : Numeral.Stops rest) :
    value fuel (gap ++ (text ++ rest)) = (v, some rest) := by
  obtain ⟨fuel, rfl⟩ : ∃ less, fuel = less + 1 := by
    obtain ⟨c, tail, rfl, -, -⟩ := h.starts
    rw [List.length_cons] at hfuel
    exact ⟨fuel - 1, by omega⟩
  have hreads : Reads fuel := hless fuel (by omega)
  have hskip : value (fuel + 1) (gap ++ (text ++ rest)) = value (fuel + 1) (text ++ rest) := by
    rw [value, value, skip_space_append hgap]
  rw [hskip]
  cases h with
  | null => rfl
  | flag value => cases value <;> rfl
  | number h => exact value_numeral h hrest fuel
  | text h =>
      rw [value, List.cons_append, skip_space_cons rfl]
      simp only [Char.reduceEq, if_false, if_true]
      exact literal_written h rest
  | list h =>
      rw [List.length_cons] at hfuel
      rw [value, List.cons_append, skip_space_cons rfl]
      simp only [if_true, hreads.items h (by omega) rest]
  | object h =>
      rw [List.length_cons] at hfuel
      rw [value, List.cons_append, skip_space_cons rfl]
      simp only [Char.reduceEq, if_false, if_true, hreads.members h (by omega) rest]

theorem items_step {first : Bool} {all : Tree Leaf .items} {text : List Char}
    (h : WrittenItems first all text) (hfuel : 2 * text.length ≤ fuel) (rest : List Char) :
    items fuel first (text ++ rest) = (all, some rest) := by
  have hpos := h.length_pos
  obtain ⟨fuel, rfl⟩ := Nat.exists_eq_add_of_le' (show 2 ≤ fuel by omega)
  have hreads : Reads fuel := hless fuel (by omega)
  cases h with
  | nil hgap =>
      rw [items, List.append_assoc, skip_space_append hgap, List.singleton_append,
        skip_space_cons rfl]
      rfl
  | cons hbefore hgap hitem hitems =>
      rename_i head others before gap text tail
      -- two steps of fuel are gone: the rest makes up for them to the item, and the item to the rest
      have htail := hitems.length_pos
      obtain ⟨c, more, htext, hspace, hclose⟩ := hitem.starts
      simp only [List.length_append] at hfuel
      have hlength : 0 < text.length := by rw [htext]; exact Nat.zero_lt_succ _
      have hhead := hreads.value hitem (by omega) blank_nil (hitems.stops rest)
      have hothers := hreads.items hitems (by omega) rest
      rw [List.nil_append] at hhead
      simp only [List.append_assoc]
      rw [htext] at hhead ⊢
      rw [List.cons_append, items_start hbefore hgap hspace hclose, item, ← List.cons_append, hhead]
      simp only [hothers]

theorem members_step {first : Bool} {all : Tree Leaf .members} {text : List Char}
    (h : WrittenMembers first all text) (hfuel : 2 * text.length ≤ fuel) (rest : List Char) :
    members fuel first (text ++ rest) = (all, some rest) := by
  have hpos := h.length_pos
  obtain ⟨fuel, rfl⟩ := Nat.exists_eq_add_of_le' (show 2 ≤ fuel by omega)
  have hreads : Reads fuel := hless fuel (by omega)
  cases h with
  | nil hgap =>
      rw [members, List.append_assoc, skip_space_append hgap, List.singleton_append,
        skip_space_cons rfl]
      rfl
  | cons hbefore hgap hkey hmiddle hinner hvalue hmembers =>
      rename_i pieces content others before gap key middle inner text tail
      simp only [List.length_append, List.length_cons] at hfuel
      have hcontent := hreads.value hvalue (by omega) hinner (hmembers.stops rest)
      have hothers := hreads.members hmembers (by omega) rest
      simp only [List.append_assoc, List.cons_append]
      rw [members_start hbefore hgap, member, literal_written hkey]
      simp only [skip_space_append hmiddle, skip_space_cons (show isSpace ':' = false from rfl),
        if_true, hcontent, hothers]

end

/-- Everything that is written is read back. -/
theorem reads (fuel : Nat) : Reads fuel := by
  induction fuel using Nat.strong_induction_on with
  | h fuel hless => exact ⟨value_step hless, items_step hless, members_step hless⟩

/-- A written value is all that a text around it holds. -/
theorem read_written {v : Tree Leaf .value} {before text after : List Char} (h : Written v text)
    (hbefore : Blank before) (hafter : Blank after) :
    read (before ++ (text ++ after)) = { root := v, after := none } := by
  have hstops : Numeral.Stops after := by
    simpa using stops_append hafter (show Numeral.Stops [] by simp [Numeral.Stops])
  have hlength : 2 * text.length ≤ 3 * (before ++ (text ++ after)).length + 3 + 1 := by
    simp only [List.length_append]
    omega
  have hvalue := (reads _).value h hlength hbefore hstops
  have hrest : skipSpace after = [] := by simpa [skipSpace] using skip_space_append hafter []
  rw [read, hvalue]
  simp [hrest]

mutual

/-- Nothing that is written is at fault when it is passed over. -/
theorem fault_written {v : Tree Leaf .value} {text : List Char} (h : Written v text) :
    v.fault? dialect.fault? = none := by
  cases h with
  | null | flag | number | text => rfl
  | list h => exact items_fault_written h
  | object h => exact members_fault_written h

theorem items_fault_written {first : Bool} {all : Tree Leaf .items} {text : List Char}
    (h : WrittenItems first all text) : all.fault? dialect.fault? = none := by
  cases h with
  | nil hgap => rfl
  | cons hbefore hgap hitem hitems =>
      rw [Tree.fault?, fault_written hitem, items_fault_written hitems]
      rfl

theorem members_fault_written {first : Bool} {all : Tree Leaf .members} {text : List Char}
    (h : WrittenMembers first all text) : all.fault? dialect.fault? = none := by
  cases h with
  | nil hgap => rfl
  | cons hbefore hgap hkey hmiddle hinner hvalue hmembers =>
      rw [Tree.fault?, fault_written hvalue, members_fault_written hmembers]
      rfl

end

/-- The writer of texts writes their characters. -/
theorem written_encode (content : String) :
    Written (.leaf (.text (.ok content))) (encode content) := by
  rw [← Literal.content_pieces content]
  exact .text (Literal.encode_written content.toList)

theorem line_at_blank (depth : Nat) : Blank (lineAt depth) := by
  intro c hc
  rw [lineAt, List.mem_cons, List.mem_replicate] at hc
  rcases hc with rfl | ⟨-, rfl⟩ <;> rfl

theorem intercalate_comma (first : List Char) (rest : List (List Char)) :
    [','].intercalate (first :: rest) = first ++ rest.flatMap (',' :: ·) := by
  induction rest generalizing first with
  | nil => simp [List.intercalate]
  | cons second rest ih => simpa [List.intercalate] using ih second

/-- The lines of a block that is not empty. -/
theorem block_cons (opening closing : Char) (depth : Nat) (part : List Char)
    (parts : List (List Char)) :
    block opening closing depth (part :: parts) =
      opening :: (lineAt (depth + 1) ++ (part ++
        (parts.flatMap (fun part => ',' :: (lineAt (depth + 1) ++ part)) ++
          (lineAt depth ++ [closing])))) := by
  simp [block, intercalate_comma, List.flatMap_map]

/-- A member as the printers write it, its key first. -/
theorem member_written {first : Bool} {key : String} {value : Tree Leaf .value}
    {members : Tree Leaf .members} {gap inner text rest : List Char} (hgap : Blank gap)
    (hinner : Blank inner) (hvalue : Written value text)
    (hmembers : WrittenMembers false members rest) :
    WrittenMembers first (.member (.leaf (.text (.ok key))) value members)
      (separator first ++ (gap ++ (encode key ++ (':' :: inner ++ (text ++ rest))))) := by
  have hall : WrittenMembers first _ _ := .cons blank_nil hgap (Literal.encode_written key.toList)
    blank_nil hinner hvalue hmembers
  rw [Literal.content_pieces] at hall
  simpa [encode] using hall

/-- A member as the printer of documents writes it. -/
theorem pretty_member_written {first : Bool} {key : String} {value : Tree Leaf .value}
    {members : Tree Leaf .members} {gap text rest : List Char} (hgap : Blank gap)
    (hvalue : Written value text) (hmembers : WrittenMembers false members rest) :
    WrittenMembers first (.member (.leaf (.text (.ok key))) value members)
      (separator first ++ (gap ++ (encode key ++ ([':', ' '] ++ (text ++ rest))))) :=
  member_written hgap blank_space hvalue hmembers

mutual

/-- The printer of documents writes every value. -/
theorem pretty_written (depth : Nat) : (v : Value) → Written (v.tree spelling) (prettyChars depth v)
  | .null => .null
  | .flag value => .flag value
  | .text content => written_encode content
  | .list [] => .list (.nil blank_nil)
  | .list (item :: rest) => by
      have hall : WrittenItems true (Value.itemTrees spelling (item :: rest)) _ :=
        .cons blank_nil (line_at_blank (depth + 1)) (pretty_written (depth + 1) item)
          (pretty_items_written (depth + 1) (line_at_blank depth) rest)
      rw [prettyChars, prettyItems, block_cons]
      exact .list hall
  | .object [] => .object (.nil blank_nil)
  | .object ((key, value) :: rest) => by
      have hall : WrittenMembers true (Value.memberTrees spelling ((key, value) :: rest)) _ :=
        pretty_member_written (line_at_blank (depth + 1)) (pretty_written (depth + 1) value)
          (pretty_members_written (depth + 1) (line_at_blank depth) rest)
      rw [prettyChars, prettyMembers, block_cons]
      exact .object (by simpa [separator] using hall)

/-- The printer of documents writes every item after a comma, on a line of its own. -/
theorem pretty_items_written (depth : Nat) {gap : List Char} (hgap : Blank gap) :
    (items : List Value) → WrittenItems false (Value.itemTrees spelling items)
      ((prettyItems depth items).flatMap (fun part => ',' :: (lineAt depth ++ part)) ++
        (gap ++ [']']))
  | [] => .nil hgap
  | item :: rest => by
      have hall : WrittenItems false (Value.itemTrees spelling (item :: rest)) _ :=
        .cons blank_nil (line_at_blank depth) (pretty_written depth item)
          (pretty_items_written depth hgap rest)
      simpa [prettyItems, separator] using hall

/-- The printer of documents writes every member after a comma, on a line of its own. -/
theorem pretty_members_written (depth : Nat) {gap : List Char} (hgap : Blank gap) :
    (members : List (String × Value)) → WrittenMembers false (Value.memberTrees spelling members)
      ((prettyMembers depth members).flatMap (fun part => ',' :: (lineAt depth ++ part)) ++
        (gap ++ ['}']))
  | [] => .nil hgap
  | (key, value) :: rest => by
      have hall : WrittenMembers false (Value.memberTrees spelling ((key, value) :: rest)) _ :=
        pretty_member_written (line_at_blank depth) (pretty_written depth value)
          (pretty_members_written depth hgap rest)
      simpa [prettyMembers, separator] using hall

end

mutual

/-- The printer of single lines writes every value. -/
theorem compact_written : (v : Value) → Written (v.tree spelling) (compactChars v)
  | .null => .null
  | .flag value => .flag value
  | .text content => written_encode content
  | .list [] => .list (.nil blank_nil)
  | .list (item :: rest) => by
      have hall : WrittenItems true (Value.itemTrees spelling (item :: rest)) _ :=
        .cons blank_nil blank_nil (compact_written item) (compact_items_written rest)
      rw [compactChars, compactItems, intercalate_comma, List.append_assoc]
      exact .list hall
  | .object [] => .object (.nil blank_nil)
  | .object ((key, value) :: rest) => by
      have hall : WrittenMembers true (Value.memberTrees spelling ((key, value) :: rest)) _ :=
        member_written blank_nil blank_nil (compact_written value) (compact_members_written rest)
      rw [compactChars, compactMembers, intercalate_comma]
      exact .object (by simpa [separator] using hall)

/-- The printer of single lines writes every item after a comma. -/
theorem compact_items_written : (items : List Value) →
    WrittenItems false (Value.itemTrees spelling items)
      ((compactItems items).flatMap (',' :: ·) ++ [']'])
  | [] => .nil blank_nil
  | item :: rest => by
      have hall : WrittenItems false (Value.itemTrees spelling (item :: rest)) _ :=
        .cons blank_nil blank_nil (compact_written item) (compact_items_written rest)
      simpa [compactItems, separator] using hall

/-- The printer of single lines writes every member after a comma. -/
theorem compact_members_written : (members : List (String × Value)) →
    WrittenMembers false (Value.memberTrees spelling members)
      ((compactMembers members).flatMap (',' :: ·) ++ ['}'])
  | [] => .nil blank_nil
  | (key, value) :: rest => by
      have hall : WrittenMembers false (Value.memberTrees spelling ((key, value) :: rest)) _ :=
        member_written blank_nil blank_nil (compact_written value) (compact_members_written rest)
      simpa [compactMembers, separator] using hall

end

/-- What is decoded from a written value is what a decoder makes of its tree. -/
theorem decode_written {α : Type} {decoder : Decoder Leaf Fault α} {v : Tree Leaf .value}
    {content : α} {text : String} {gap written : List Char} (htext : text.toList = written ++ gap)
    (h : Written v written) (hgap : Blank gap)
    (hdecode : ∀ scope : Scope Leaf Fault, scope.dialect = dialect →
      decoder scope [] v = pure content) :
    decode decoder text = .ok content := by
  have hread := read_written h blank_nil hgap
  have hrun := hdecode { dialect, anchor? := fun _ => none, limit := 0 } rfl
  rw [List.nil_append] at hread
  simp [decode, htext, hread, hrun, StateT.run, pure, StateT.pure, Except.pure]

end Schemata.Json
