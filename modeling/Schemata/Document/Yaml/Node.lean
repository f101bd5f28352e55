import Schemata.Document.Tree
import Schemata.Document.Yaml.Scanner

/-!
# YAML nodes

From tokens to a document tree. The tokens of a document follow a grammar of block collections, flow
collections and scalars; where a node is left out, an empty scalar stands in its place. Tokens that
do not fit, or that end before the end token, are a fault, and the tree ends there.

A name that marks a node is numbered by the count of different names before it. A reference leads to
the last node that was given its number.
-/

namespace Schemata.Yaml

/-- Why a text is not a YAML document. -/
inductive Fault where
  /-- The text is not well formed. -/
  | malformed
  /-- A reference to a name that marks no node before it. -/
  | unknownAnchor
  /-- A second document follows the first. -/
  | moreDocuments
  deriving DecidableEq, Repr

/-- A scalar node. -/
structure Scalar where
  text : String
  style : Style
  tag : Option String := none
  deriving DecidableEq, Repr

/-- A scalar of a document tree, or the place where the tree ends at a fault. -/
inductive Leaf where
  | scalar (scalar : Scalar)
  | broken (fault : Fault)
  deriving DecidableEq, Repr

/-- A node of a document. -/
abbrev Node := Tree Leaf .value

namespace Node

/-- The end of a tree at a fault. -/
def broken (fault : Fault) : Node := .leaf (.broken fault)

/-- A node that was left out. -/
def empty : Node := .leaf (.scalar { text := "", style := .plain })

end Node

/-- A node that was given a number, and when it started. -/
structure Marked where
  number : Nat
  serial : Nat
  node : Node

/-- What a reader of nodes knows between two tokens. -/
structure Reading where
  tokens : List Token
  /-- What tag handles stand for. -/
  handles : List (String × String) := []
  /-- The names of nodes and their numbers. -/
  names : List (String × Nat) := []
  /-- How many nodes were given a number so far. -/
  started : Nat := 0
  marked : List Marked := []
  /-- How many scalars, references, and starts and ends of collections were met. -/
  size : Nat := 0

namespace Reading

/-- The next token; `none` at a fault. -/
def peek (r : Reading) : Option Token := r.tokens.head?

/-- Go on by one token. -/
def next (r : Reading) : Reading := { r with tokens := r.tokens.tail }

/-- Count some parts of the document. -/
def count (r : Reading) (parts : Nat) : Reading := { r with size := r.size + parts }

/-- Give up: nothing is read after a fault. -/
def stop (r : Reading) : Reading := { r with tokens := [] }

/-- The number that a name gives to the next node, and the names after it. -/
def number (r : Reading) (name : String) : Nat × Reading :=
  let number := (r.names.map (·.1)).eraseDups.length
  (number, { r with names := (name, number) :: r.names, started := r.started + 1 })

/-- The full tag of a tag token; `none` if its handle stands for nothing. -/
def tag? (r : Reading) (handle rest : String) : Option String :=
  if handle.isEmpty then some rest else (r.handles.lookup handle).map (· ++ rest)

/-- The node that a number leads to: of those given the number, the one that started last. -/
def node? (r : Reading) (number : Nat) : Option Node :=
  let found := (r.marked.filter (·.number == number)).foldl
    (fun best marked => match best with
      | none => some marked
      | some other => if other.serial < marked.serial then some marked else best)
    (none : Option Marked)
  found.map (·.node)

end Reading

/-- The names in front of a node. -/
structure Properties where
  anchor : Option String := none
  tag : Option (String × String) := none

namespace Properties

/-- Whether nothing was given. -/
def isEmpty (properties : Properties) : Bool :=
  properties.anchor.isNone && properties.tag.isNone

/-- Read an anchor and a tag in either order. -/
def read (r : Reading) : Properties × Reading :=
  match r.peek with
  | some (.anchor name) =>
    match r.next.peek with
    | some (.tag handle rest) => ({ anchor := some name, tag := some (handle, rest) }, r.next.next)
    | _ => ({ anchor := some name }, r.next)
  | some (.tag handle rest) =>
    match r.next.peek with
    | some (.anchor name) => ({ anchor := some name, tag := some (handle, rest) }, r.next.next)
    | _ => ({ tag := some (handle, rest) }, r.next)
  | _ => ({}, r)

/-- The full tag, if one was given; the outer `none` is a tag whose handle stands for nothing. -/
def fullTag? (properties : Properties) (r : Reading) : Option (Option String) :=
  match properties.tag with
  | none => some none
  | some (handle, rest) => some <$> r.tag? handle rest

end Properties

namespace Node

/-- Which collections may start where a node is expected. -/
inductive Place where
  /-- Between brackets: none but those in brackets. -/
  | flow
  /-- After a dash: blocks of their own. -/
  | block
  /-- After a key: also a list whose dashes are not indented. -/
  | value
  deriving DecidableEq, Repr

/-- A tag that says nothing about a scalar that has content. -/
def scalarTag (tag : Option String) : Option String :=
  if tag = some "!" then none else tag

/-- A run of items that ends at a fault. -/
def brokenItems : Tree Leaf .items := .item (broken .malformed) .noItems

/-- A run of members that ends at a fault. -/
def brokenMembers : Tree Leaf .members :=
  .member (broken .malformed) (broken .malformed) .noMembers

/-- Whether a token ends the run of members in which a key or value was left out. -/
def endsMember (token : Token) : Bool :=
  token == .key || token == .value || token == .blockEnd

/-- Whether a token ends an entry between brackets. -/
def endsEntry (close : Token) (token : Token) : Bool :=
  token == .flowEntry || token == close

/-- Register a node under the number that its name gave it. -/
def mark (number : Option (Nat × Nat)) (node : Node) (r : Reading) : Node × Reading :=
  match number with
  | none => (node, r)
  | some (number, serial) => (node, { r with marked := { number, serial, node } :: r.marked })

/-- Number a node that has a name. -/
def numbered (anchor : Option String) (r : Reading) : Option (Nat × Nat) × Reading :=
  match anchor with
  | none => (none, r)
  | some name =>
    let (number, after) := r.number name
    (some (number, r.started), after)

mutual

/-- Read a node. -/
def read : Nat → Place → Reading → Node × Reading
  | 0, _, r => (broken .malformed, r.stop)
  | fuel + 1, place, r =>
    match r.peek with
    | some (.reference name) =>
      match r.names.lookup name with
      | some number => (.reference number, r.next.count 1)
      | none => (broken .unknownAnchor, r.stop)
    | _ =>
      let (properties, r) := Properties.read r
      match r.peek, properties.fullTag? r with
      | none, _ => (broken .malformed, r.stop)
      | _, none => (broken .malformed, r.stop)
      | some token, some tag =>
        let (number, after) := numbered properties.anchor r
        match token, place with
        | .blockEntry, .value =>
          let (items, after) := indentless fuel (after.count 1)
          mark number (.list items) after
        | .scalar text style, _ =>
          mark number (.leaf (.scalar { text, style, tag := scalarTag tag })) (after.next.count 1)
        | .flowSequenceStart, _ =>
          let (items, after) := flowItems fuel true (after.next.count 1)
          mark number (.list items) after
        | .flowMappingStart, _ =>
          let (members, after) := flowMembers fuel true (after.next.count 1)
          mark number (.object members) after
        | other, place =>
          if other = .blockSequenceStart ∧ place ≠ .flow then
            let (items, after) := blockItems fuel (after.next.count 1)
            mark number (.list items) after
          else if other = .blockMappingStart ∧ place ≠ .flow then
            let (members, after) := blockMembers fuel (after.next.count 1)
            mark number (.object members) after
          else if properties.isEmpty then (broken .malformed, r.stop)
          else mark number (.leaf (.scalar { text := "", style := .plain, tag })) (after.count 1)

/-- Read a node, or take it as left out before a token of the given kind. -/
def readUnless : Nat → (Token → Bool) → Place → Reading → Node × Reading
  | 0, _, _, r => (broken .malformed, r.stop)
  | fuel + 1, ends, place, r =>
    match r.peek with
    | none => (broken .malformed, r.stop)
    | some token => if ends token then (empty, r.count 1) else read fuel place r

/-- The items of a block of dashes. -/
def blockItems : Nat → Reading → Tree Leaf .items × Reading
  | 0, r => (brokenItems, r.stop)
  | fuel + 1, r =>
    match r.peek with
    | some .blockEntry =>
      let (head, r) :=
        readUnless fuel (fun token => token == .blockEntry || token == .blockEnd) .block r.next
      let (rest, r) := blockItems fuel r
      (.item head rest, r)
    | some .blockEnd => (.noItems, r.next.count 1)
    | _ => (brokenItems, r.stop)

/-- The items of a list whose dashes are not indented; it ends before any other token. -/
def indentless : Nat → Reading → Tree Leaf .items × Reading
  | 0, r => (brokenItems, r.stop)
  | fuel + 1, r =>
    match r.peek with
    | some .blockEntry =>
      let (head, r) :=
        readUnless fuel (fun token => token == .blockEntry || endsMember token) .block r.next
      let (rest, r) := indentless fuel r
      (.item head rest, r)
    | some _ => (.noItems, r.count 1)
    | none => (brokenItems, r.stop)

/-- The members of a block of keys. -/
def blockMembers : Nat → Reading → Tree Leaf .members × Reading
  | 0, r => (brokenMembers, r.stop)
  | fuel + 1, r =>
    match r.peek with
    | some .key =>
      let (key, r) := readUnless fuel endsMember .value r.next
      let (value, r) :=
        match r.peek with
        | some .value => readUnless fuel endsMember .value r.next
        | some _ => (empty, r.count 1)
        | none => (broken .malformed, r.stop)
      let (rest, r) := blockMembers fuel r
      (.member key value rest, r)
    | some .blockEnd => (.noMembers, r.next.count 1)
    | _ => (brokenMembers, r.stop)

/-- The single pair that stands for an item between brackets, after its key mark. -/
def flowPair : Nat → Reading → Node × Reading
  | 0, r => (broken .malformed, r.stop)
  | fuel + 1, r =>
    match r.peek with
    | none => (.object brokenMembers, r.stop)
    | some token =>
      let (key, r) :=
        if token = .value ∨ endsEntry .flowSequenceEnd token then (empty, r.next.count 1)
        else read fuel .flow r
      let (value, r) :=
        match r.peek with
        | some .value => readUnless fuel (endsEntry .flowSequenceEnd) .flow r.next
        | some _ => (empty, r.count 1)
        | none => (broken .malformed, r.stop)
      match r.peek with
      | some _ => (.object (.member key value .noMembers), r.count 1)
      | none => (.object (.member key value brokenMembers), r.stop)

/-- One item between brackets, and the items after it. -/
def flowItem : Nat → Reading → Tree Leaf .items × Reading
  | 0, r => (brokenItems, r.stop)
  | fuel + 1, r =>
    match r.peek with
    | none => (brokenItems, r.stop)
    | some .flowSequenceEnd => (.noItems, r.next.count 1)
    | some .key =>
      let (head, r) := flowPair fuel (r.next.count 1)
      let (rest, r) := flowItems fuel false r
      (.item head rest, r)
    | some _ =>
      let (head, r) := read fuel .flow r
      let (rest, r) := flowItems fuel false r
      (.item head rest, r)

/-- The items between brackets. -/
def flowItems : Nat → Bool → Reading → Tree Leaf .items × Reading
  | 0, _, r => (brokenItems, r.stop)
  | fuel + 1, first, r =>
    if first then flowItem fuel r
    else
      match r.peek with
      | some .flowSequenceEnd => (.noItems, r.next.count 1)
      | some .flowEntry => flowItem fuel r.next
      | _ => (brokenItems, r.stop)

/-- One member between braces, and the members after it. -/
def flowMember : Nat → Reading → Tree Leaf .members × Reading
  | 0, r => (brokenMembers, r.stop)
  | fuel + 1, r =>
    match r.peek with
    | none => (brokenMembers, r.stop)
    | some .flowMappingEnd => (.noMembers, r.next.count 1)
    | some .key =>
      let (key, r) := readUnless fuel
        (fun token => token == .value || endsEntry .flowMappingEnd token) .flow r.next
      let (value, r) :=
        match r.peek with
        | some .value => readUnless fuel (endsEntry .flowMappingEnd) .flow r.next
        | some _ => (empty, r.count 1)
        | none => (broken .malformed, r.stop)
      let (rest, r) := flowMembers fuel false r
      (.member key value rest, r)
    | some _ =>
      let (key, r) := read fuel .flow r
      let (value, r) :=
        match r.peek with
        | some _ => (empty, r.count 1)
        | none => (broken .malformed, r.stop)
      let (rest, r) := flowMembers fuel false r
      (.member key value rest, r)

/-- The members between braces. -/
def flowMembers : Nat → Bool → Reading → Tree Leaf .members × Reading
  | 0, _, r => (brokenMembers, r.stop)
  | fuel + 1, first, r =>
    if first then flowMember fuel r
    else
      match r.peek with
      | some .flowMappingEnd => (.noMembers, r.next.count 1)
      | some .flowEntry => flowMember fuel r.next
      | _ => (brokenMembers, r.stop)

end

end Node

end Schemata.Yaml
