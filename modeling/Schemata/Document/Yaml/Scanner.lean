import Schemata.Document.Yaml.BlockScalar
import Schemata.Document.Yaml.Tag

/-!
# Scanning YAML

From a text to its tokens. The indentation of a line closes blocks, and a colon turns what stands
before it into a key: the place where a token may turn out to be a key is remembered, and the tokens
that announce the key are put in there once the colon is met. A token that may still be announced in
this way is not settled. When the scanner meets a fault, the tokens settled before it remain and the
list lacks its end token.
-/

namespace Schemata.Yaml

/-- A place where a key may have started. -/
structure PossibleKey where
  /-- Nothing but a key can stand here. -/
  required : Bool
  /-- How many tokens were emitted before it. -/
  number : Nat
  index : Nat
  line : Nat
  column : Nat
  deriving DecidableEq, Repr

/-- The state of a scan. -/
structure Scanner where
  cursor : Cursor
  /-- The column of the innermost block, negative when there is none. -/
  indent : Int := -1
  /-- The columns of the blocks around it. -/
  outerIndents : List Int := []
  /-- Whether a key may start at the cursor. -/
  keyAllowed : Bool := true
  /-- Where a key of the innermost collection may have started. -/
  possible : Option PossibleKey := none
  /-- The same for the collections around it, one for each pair of brackets that is open. -/
  outerPossible : List (Option PossibleKey) := []
  /-- The tokens, newest first. -/
  emitted : List Token := []
  count : Nat := 0

namespace Scanner

/-- Whether brackets are open. -/
def inFlow (s : Scanner) : Bool := !s.outerPossible.isEmpty

/-- Add a token. -/
def emit (s : Scanner) (token : Token) : Scanner :=
  { s with emitted := token :: s.emitted, count := s.count + 1 }

/-- Add a token before those that were emitted from `number` on. -/
def insert (s : Scanner) (number : Nat) (token : Token) : Scanner :=
  let later := s.count - number
  { s with
    emitted := s.emitted.take later ++ token :: s.emitted.drop later
    count := s.count + 1 }

/-- The tokens that no colon can change any more. -/
def settled (s : Scanner) : List Token :=
  let limit := (s.possible :: s.outerPossible).foldl
    (fun limit key => key.elim limit fun key => min limit key.number) s.count
  s.emitted.reverse.take limit

/-- Whether a key that started there is out of reach: keys end on their line and have at most 1024
characters. -/
def isStale (s : Scanner) (key : PossibleKey) : Bool :=
  key.line < s.cursor.line || key.index + 1024 < s.cursor.index

/-- Give up a key that is out of reach; `none` if it was required. -/
def refresh (s : Scanner) : Option PossibleKey → Option (Option PossibleKey)
  | none => some none
  | some key => if s.isStale key then if key.required then none else some none else some (some key)

/-- Give up the keys that are out of reach. -/
def dropStale (s : Scanner) : Option Scanner := do
  let outer ← s.outerPossible.mapM s.refresh
  let inner ← s.refresh s.possible
  pure { s with possible := inner, outerPossible := outer }

/-- Give up the possible key of the innermost collection; `none` if it was required. -/
def dropPossible (s : Scanner) : Option Scanner :=
  if s.possible.any (·.required) then none else some { s with possible := none }

/-- Remember that a key may start at the cursor. -/
def savePossible (s : Scanner) : Option Scanner :=
  if s.keyAllowed then do
    let s ← s.dropPossible
    pure { s with
      possible := some {
        required := !s.inFlow && s.indent == (s.cursor.column : Int)
        number := s.count
        index := s.cursor.index
        line := s.cursor.line
        column := s.cursor.column } }
  else some s

/-- Open a block at a column that is further in, before the tokens from `number` on. -/
def openBlock (s : Scanner) (column number : Nat) (token : Token) : Scanner :=
  if !s.inFlow && s.indent < (column : Int) then
    { s.insert number token with indent := column, outerIndents := s.indent :: s.outerIndents }
  else s

/-- Close the blocks further in than a column; `outer` are the columns around them. -/
def closeFrom (column : Int) : Scanner → List Int → Scanner
  | s, [] => s
  | s, outer :: rest =>
    if column < s.indent then
      closeFrom column { s.emit .blockEnd with indent := outer, outerIndents := rest } rest
    else s

/-- Close the blocks further in than a column. -/
def closeBlocks (s : Scanner) (column : Int) : Scanner :=
  if s.inFlow then s else closeFrom column s s.outerIndents

/-- Go on over white space and comments. A line break outside brackets allows a key again; a tab is
white space only where no key may start. -/
def seek (inFlow : Bool) : Nat → Cursor → Bool → Cursor × Bool
  | 0, cursor, allowed => (cursor, allowed)
  | fuel + 1, cursor, allowed =>
    let cursor :=
      if cursor.column = 0 && cursor.sees (· == byteOrderMark) then cursor.advance 1 else cursor
    let cursor := cursor.skipWhile fun c => c == ' ' || ((inFlow || !allowed) && c == '\t')
    let cursor := if cursor.sees (· == '#') then cursor.skipWhile (!isBreak ·) else cursor
    if cursor.sees isBreak then seek inFlow fuel cursor.nextLine (allowed || !inFlow)
    else (cursor, allowed)

/-- The end of the text. -/
def streamEnd (s : Scanner) : Option Scanner := do
  let s ← (s.closeBlocks (-1)).dropPossible
  pure { s.emit .streamEnd with keyAllowed := false }

/-- A directive. -/
def directive (s : Scanner) : Option Scanner := do
  let s ← (s.closeBlocks (-1)).dropPossible
  let (token, cursor) ← Directive.read s.cursor
  pure { s.emit token with cursor, keyAllowed := false }

/-- The mark at the start or the end of a document. -/
def documentMark (s : Scanner) (token : Token) : Option Scanner := do
  let s ← (s.closeBlocks (-1)).dropPossible
  pure { s.emit token with cursor := s.cursor.advance 3, keyAllowed := false }

/-- An opening bracket. -/
def openFlow (s : Scanner) (token : Token) : Option Scanner := do
  let s ← s.savePossible
  pure { s.emit token with
    cursor := s.cursor.advance 1
    keyAllowed := true
    possible := none
    outerPossible := s.possible :: s.outerPossible }

/-- A closing bracket. -/
def closeFlow (s : Scanner) (token : Token) : Option Scanner := do
  let s ← s.dropPossible
  let next := { s.emit token with cursor := s.cursor.advance 1, keyAllowed := false }
  match s.outerPossible with
  | [] => pure next
  | outer :: rest => pure { next with possible := outer, outerPossible := rest }

/-- A comma between brackets. -/
def flowEntry (s : Scanner) : Option Scanner := do
  let s ← s.dropPossible
  pure { s.emit .flowEntry with cursor := s.cursor.advance 1, keyAllowed := true }

/-- A dash before an item. -/
def blockEntry (s : Scanner) : Option Scanner :=
  if !s.inFlow && !s.keyAllowed then none
  else do
    let s ← (s.openBlock s.cursor.column s.count .blockSequenceStart).dropPossible
    pure { s.emit .blockEntry with cursor := s.cursor.advance 1, keyAllowed := true }

/-- A question mark before a key. -/
def keyMark (s : Scanner) : Option Scanner :=
  if !s.inFlow && !s.keyAllowed then none
  else do
    let s ← (s.openBlock s.cursor.column s.count .blockMappingStart).dropPossible
    pure { s.emit .key with cursor := s.cursor.advance 1, keyAllowed := !s.inFlow }

/-- A colon before a value. -/
def valueMark (s : Scanner) : Option Scanner :=
  match s.possible with
  | some key =>
    let s := (s.insert key.number .key).openBlock key.column key.number .blockMappingStart
    some { s.emit .value with cursor := s.cursor.advance 1, keyAllowed := false, possible := none }
  | none =>
    if !s.inFlow && !s.keyAllowed then none
    else
      let s := s.openBlock s.cursor.column s.count .blockMappingStart
      some { s.emit .value with cursor := s.cursor.advance 1, keyAllowed := !s.inFlow }

/-- A name in front of a node. -/
def property (s : Scanner) (read : Cursor → Option (Token × Cursor)) : Option Scanner := do
  let s ← s.savePossible
  let (token, cursor) ← read s.cursor
  pure { s.emit token with cursor, keyAllowed := false }

/-- A block scalar. -/
def blockScalar (s : Scanner) (folded : Bool) : Option Scanner := do
  let s ← s.dropPossible
  let found ← Block.read folded s.indent (s.cursor.advance 1)
  let style := if folded then Style.folded else .literal
  pure { s.emit (.scalar (String.ofList found.text) style) with
    cursor := found.cursor, keyAllowed := true }

/-- A quoted scalar. -/
def quoted (s : Scanner) (quote : Char) : Option Scanner := do
  let s ← s.savePossible
  let found ← Quoted.read quote (s.cursor.rest.length + 1) [] (s.cursor.advance 1)
  pure { s.emit (.scalar (String.ofList found.text) .quoted) with
    cursor := found.cursor, keyAllowed := false }

/-- A plain scalar. A key may start after it only if it went on to another line. -/
def plain (s : Scanner) : Option Scanner := do
  let s ← s.savePossible
  let found ← Plain.read s.inFlow (s.indent + 1).toNat (s.cursor.rest.length + 1) [] .empty s.cursor
  pure { s.emit (.scalar (String.ofList found.text) .plain) with
    cursor := found.cursor, keyAllowed := found.passedBreak }

/-- A character that cannot start a plain scalar by itself. -/
def isIndicator (c : Char) : Bool :=
  ['-', '?', ':', ',', '[', ']', '{', '}', '#', '&', '*', '!', '|', '>', '\'', '"', '%', '@',
    '\x60'].contains c

/-- Whether a plain scalar starts with this character. -/
def startsPlain (inFlow : Bool) (c : Char) (rest : List Char) : Bool :=
  !(isSpace c || isIndicator c) ||
    (c == '-' && !rest.head?.any isGap) ||
    (!inFlow && (c == '?' || c == ':') && !startsApart rest)

/-- Read the token that starts at the cursor. -/
def readToken (s : Scanner) : Option Scanner :=
  match s.cursor.rest with
  | [] => s.streamEnd
  | c :: rest =>
    if s.cursor.column = 0 ∧ c = '%' then s.directive
    else if s.cursor.atMark '-' then s.documentMark .documentStart
    else if s.cursor.atMark '.' then s.documentMark .documentEnd
    else if c = '[' then s.openFlow .flowSequenceStart
    else if c = '{' then s.openFlow .flowMappingStart
    else if c = ']' then s.closeFlow .flowSequenceEnd
    else if c = '}' then s.closeFlow .flowMappingEnd
    else if c = ',' then s.flowEntry
    else if c = '-' ∧ startsApart rest then s.blockEntry
    else if c = '?' ∧ (s.inFlow || startsApart rest) then s.keyMark
    else if c = ':' ∧ (s.inFlow || startsApart rest) then s.valueMark
    else if c = '*' then s.property fun cursor => do
      let (name, after) ← readAnchor cursor
      pure (.reference name, after)
    else if c = '&' then s.property fun cursor => do
      let (name, after) ← readAnchor cursor
      pure (.anchor name, after)
    else if c = '!' then s.property (Tag.read s.inFlow)
    else if c = '|' ∧ !s.inFlow then s.blockScalar false
    else if c = '>' ∧ !s.inFlow then s.blockScalar true
    else if c = '\'' ∨ c = '"' then s.quoted c
    else if startsPlain s.inFlow c rest then s.plain
    else none

/-- Go on to the next token and read it. -/
def step (s : Scanner) : Option Scanner := do
  let (cursor, keyAllowed) := seek s.inFlow (s.cursor.rest.length + 1) s.cursor s.keyAllowed
  let s ← { s with cursor, keyAllowed }.dropStale
  let s ← (s.closeBlocks cursor.column).readToken
  s.dropStale

/-- Read tokens up to the end or to a fault. -/
def run : Nat → Scanner → List Token
  | 0, s => s.settled
  | fuel + 1, s =>
    match s.step with
    | none => s.settled
    | some next =>
      if next.emitted.head? = some .streamEnd then next.emitted.reverse else run fuel next

end Scanner

/-- The tokens of a text, up to its end or to its first fault. A mark at the very start of the text
is no part of it, and a character that no text may hold is a fault from the start. -/
def scan (text : List Char) : List Token :=
  let text := if text.head? = some byteOrderMark then text.tail else text
  if text.all isAllowed then
    Scanner.run (text.length + 2) { cursor := { rest := text } }
  else []

end Schemata.Yaml
