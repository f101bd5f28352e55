import Mathlib.Data.List.Sort
import Schemata.Pipeline.Input
import Schemata.Proofs.Document.Reloading

/-!
# The last write counts

Options are changed by writes to their keys, arguments by pairs that are each written to a slot.
`lastWrite?` is what was written last to one place, and `read_foldl` says when a run of writes
leaves just that there. `Arguments.overlay` puts arguments over others slot by slot. The main
statement, `last_write_wins`, is that nothing but the last write to each place shows in options and
in arguments, and that options show it in one form only.
-/

namespace Schemata

section Writes

variable {σ α ν : Type} {written? : α → Option ν}

/-- The last of all that some steps write to a place, if any of them writes to it. -/
def lastWrite? (written? : α → Option ν) (steps : List α) : Option ν :=
  (steps.filterMap written?).getLast?

theorem lastWrite?_append (steps more : List α) :
    lastWrite? written? (steps ++ more) =
      (lastWrite? written? more).or (lastWrite? written? steps) := by
  simp [lastWrite?, List.filterMap_append, List.getLast?_append]

theorem lastWrite?_cons (step : α) (rest : List α) :
    lastWrite? written? (step :: rest) = (lastWrite? written? rest).or (written? step) := by
  rw [← List.singleton_append, lastWrite?_append]
  cases h : written? step <;> simp [lastWrite?, h]

/-- Where each step leaves what it writes, and otherwise what was there, a run leaves the last
write. -/
theorem read_foldl {apply : σ → α → σ} {read : σ → Option ν}
    (h : ∀ state step, read (apply state step) = (written? step).or (read state)) (start : σ)
    (steps : List α) :
    read (steps.foldl apply start) = (lastWrite? written? steps).or (read start) := by
  induction steps generalizing start with
  | nil => rfl
  | cons step rest ih => rw [List.foldl_cons, ih, h, lastWrite?_cons, Option.or_assoc]

end Writes

namespace Options

/-- What changes options. Since options are values, it makes no difference whether they are changed
in place or while they are built. -/
inductive Change where
  | set (key value : String)
  | merge (other : Options)

namespace Change

/-- Change options. -/
def apply (options : Options) : Change → Options
  | set key value => options.set key value
  | merge other => options.merge other

/-- What a change writes to a key. -/
def written? (key : String) : Change → Option String
  | set name value => if key = name then some value else none
  | merge other => other.get? key

theorem get?_apply (options : Options) (change : Change) (key : String) :
    (change.apply options).get? key = (change.written? key).or (options.get? key) := by
  cases change with
  | set name value =>
      show (options.set name value).get? key = _
      rw [get?_set, written?]
      split <;> rfl
  | merge other => exact get?_merge options other key

end Change

/-- The options after some changes. -/
def after (options : Options) (changes : List Change) : Options :=
  changes.foldl Change.apply options

theorem get?_after (options : Options) (changes : List Change) (key : String) :
    (options.after changes).get? key =
      (lastWrite? (Change.written? key) changes).or (options.get? key) :=
  @read_foldl Options Change String (Change.written? key) Change.apply (·.get? key)
    (fun state change => Change.get?_apply state change key) options changes

theorem mem_pairs_iff {options : Options} {key value : String} :
    (key, value) ∈ options.pairs ↔ options.get? key = some value := by
  have hkeys : (options.pairs.map (·.1)).Nodup := by
    refine options.values.pairwise_keys.imp ?_
    intro name later hlt hsame
    rw [hsame] at hlt
    exact String.lt_irrefl later hlt
  constructor
  · intro hmem
    cases hfound : options.pairs.find? (·.1 == key) with
    | none => simpa using List.find?_eq_none.mp hfound (key, value) hmem
    | some entry =>
        have hkey : entry.1 = key := by simpa using List.find?_some hfound
        have hentry : entry = (key, value) :=
          List.inj_on_of_nodup_map hkeys (List.mem_of_find?_eq_some hfound) hmem hkey
        rw [hentry] at hfound
        show (options.pairs.find? (·.1 == key)).map (·.2) = some value
        rw [hfound]
        rfl
  · intro h
    obtain ⟨entry, hfound, hvalue⟩ := Option.map_eq_some_iff.mp h
    have hkey : entry.1 = key := by simpa using List.find?_some hfound
    rw [← hkey, ← hvalue]
    exact List.mem_of_find?_eq_some hfound

/-- The pairs of options are the only list in ascending order with the value of each key. -/
theorem pairs_eq_iff {options : Options} {entries : List (String × String)} :
    options.pairs = entries ↔
      entries.Pairwise (fun entry later => entry.1 < later.1) ∧
        ∀ key value, (key, value) ∈ entries ↔ options.get? key = some value := by
  constructor
  · intro h
    subst h
    exact ⟨options.values.ordered, fun key value => mem_pairs_iff⟩
  · intro h
    obtain ⟨hordered, hmem⟩ := h
    let other : Options := { values := { entries, ordered := hordered } }
    have hother : options = other := by
      refine ext_get? fun key => Option.ext fun value => ?_
      rw [← hmem, ← mem_pairs_iff]
      rfl
    rw [hother]
    rfl

section Documents

variable {options other : Options} {text : String}

/-- A text is written for the document of one set of options only. -/
theorem eq_of_writes (h : Json.Writes text (options.document.tree Json.spelling))
    (hother : Json.Writes text (other.document.tree Json.spelling)) : options = other := by
  have hpairs := Json.decode_of_writes h (decode_document Json.spelling_faithful [] options)
  have hothers := Json.decode_of_writes hother (decode_document Json.spelling_faithful [] other)
  rw [hpairs] at hothers
  rw [← of_pairs_pairs options, Except.ok.inj hothers, of_pairs_pairs]

/-- A writer of documents writes different options differently. -/
theorem written_eq_iff {write : Value → String}
    (h : ∀ value, Json.Writes (write value) (value.tree Json.spelling)) :
    write options.document = write other.document ↔ options = other := by
  constructor
  · intro hsame
    have hother := h other.document
    rw [← hsame] at hother
    exact eq_of_writes (h options.document) hother
  · intro heq
    rw [heq]

end Documents

end Options

namespace Arguments

/-- A place in arguments: some have a name, and there is one for each option. -/
inductive Slot where
  | data
  | filename
  | parser
  | producer
  | option (key : String)
  deriving DecidableEq

namespace Slot

/-- The slot that a key stands for. -/
def ofKey : String → Slot
  | "data" => data
  | "filename" | "file" => filename
  | "parser" | "from" => parser
  | "producer" | "to" => producer
  | key => option key

/-- What a slot holds. -/
def Content : Slot → Type
  | data | filename | option _ => String
  | parser => Reference .parser
  | producer => Reference .producer

/-- What is put into a slot for a text, which may name a plugin. -/
def content (value : String) : (slot : Slot) → slot.Content
  | data | filename | option _ => value
  | parser | producer => Reference.named value

/-- What a pair writes to a slot. -/
def written? (slot : Slot) (pair : String × String) : Option slot.Content :=
  if ofKey pair.1 = slot then some (slot.content pair.2) else none

end Slot

/-- What arguments hold in a slot. -/
def slot? (arguments : Arguments) : (slot : Slot) → Option slot.Content
  | .data => arguments.data
  | .filename => arguments.filename
  | .parser => arguments.parser
  | .producer => arguments.producer
  | .option key => arguments.options.get? key

/-- Put the content of every slot of `other` over the arguments. -/
def overlay (arguments other : Arguments) : Arguments where
  data := other.data.or arguments.data
  filename := other.filename.or arguments.filename
  parser := other.parser.or arguments.parser
  producer := other.producer.or arguments.producer
  options := arguments.options.merge other.options

/-- Arguments are determined by what is in each slot. -/
theorem ext_slot? {arguments other : Arguments}
    (h : ∀ slot, arguments.slot? slot = other.slot? slot) : arguments = other := by
  have hoptions : arguments.options = other.options :=
    Options.ext_get? fun key => h (.option key)
  cases arguments
  cases other
  congr
  exacts [h .data, h .filename, h .parser, h .producer]

theorem slot?_overlay (arguments other : Arguments) (slot : Slot) :
    (arguments.overlay other).slot? slot = (other.slot? slot).or (arguments.slot? slot) := by
  cases slot with
  | data | filename | parser | producer => rfl
  | option key => exact Options.get?_merge arguments.options other.options key

/-- Put a text into a slot. -/
def put (arguments : Arguments) (value : String) : Slot → Arguments
  | .data => { arguments with data := some value }
  | .filename => { arguments with filename := some value }
  | .parser => { arguments with parser := some (.named value) }
  | .producer => { arguments with producer := some (.named value) }
  | .option key => { arguments with options := arguments.options.set key value }

/-- A pair is put into the slot of its key. -/
theorem take_eq_put (arguments : Arguments) (key value : String) :
    arguments.take key value = arguments.put value (Slot.ofKey key) := by
  unfold Slot.ofKey
  split <;> simp_all [take, put]

/-- A slot holds what was put into it last, and no other slot changes. -/
theorem slot?_put (arguments : Arguments) (value : String) (place slot : Slot) :
    (arguments.put value place).slot? slot =
      if place = slot then some (slot.content value) else arguments.slot? slot := by
  cases place <;> cases slot
  -- two options stand in one slot only under the same key
  case option.option name key =>
    have hset := arguments.options.get?_set name value key
    by_cases hkey : key = name
    · subst hkey
      rw [if_pos rfl] at hset ⊢
      exact hset
    · have hslot : Slot.option name ≠ .option key := fun h => hkey (Slot.option.inj h).symm
      rw [if_neg hkey] at hset
      rw [if_neg hslot]
      exact hset
  all_goals rfl

theorem slot?_take (arguments : Arguments) (pair : String × String) (slot : Slot) :
    (arguments.take pair.1 pair.2).slot? slot =
      (slot.written? pair).or (arguments.slot? slot) := by
  rw [take_eq_put, slot?_put, Slot.written?]
  split <;> rfl

/-- The arguments of some pairs hold in each slot what the last pair of the slot says. -/
theorem slot?_of_pairs (pairs : List (String × String)) (slot : Slot) :
    (ofPairs pairs).slot? slot = lastWrite? slot.written? pairs := by
  have hempty : ({} : Arguments).slot? slot = none := by cases slot <;> rfl
  have hread := @read_foldl Arguments _ _ slot.written? _ (·.slot? slot)
    (fun arguments pair => arguments.slot?_take pair slot) {} pairs
  rw [hempty, Option.or_none] at hread
  exact hread

theorem of_pairs_append (pairs others : List (String × String)) :
    ofPairs (pairs ++ others) = (ofPairs pairs).overlay (ofPairs others) := by
  refine ext_slot? fun slot => ?_
  simp only [slot?_overlay, slot?_of_pairs, lastWrite?_append]

theorem of_pairs_eq_iff {pairs others : List (String × String)} :
    ofPairs pairs = ofPairs others ↔
      ∀ slot : Slot, lastWrite? slot.written? pairs = lastWrite? slot.written? others := by
  simp only [← slot?_of_pairs]
  constructor
  · intro h slot
    rw [h]
  · exact ext_slot?

/-- Only the pairs of a slot write to it. -/
theorem Slot.writes_eq (slot : Slot) (pairs : List (String × String)) :
    pairs.filterMap slot.written? =
      (pairs.filter fun pair => ofKey pair.1 = slot).map fun pair => slot.content pair.2 := by
  induction pairs with
  | nil => rfl
  | cons pair rest ih => by_cases h : ofKey pair.1 = slot <;> simp [written?, h, ih]

theorem of_pairs_reordered {pairs others : List (String × String)}
    (h : ∀ slot, (pairs.filter fun pair => Slot.ofKey pair.1 = slot) =
      others.filter fun pair => Slot.ofKey pair.1 = slot) : ofPairs pairs = ofPairs others := by
  refine of_pairs_eq_iff.mpr fun slot => ?_
  rw [lastWrite?, lastWrite?, Slot.writes_eq, Slot.writes_eq, h slot]

end Arguments

open Arguments (Slot)
open Options (Change)

/-- After some changes a key of options holds what was written to it last, where a merge writes all
that the other options hold. What the options list is settled by the last writes: it is the one list
in ascending order of the keys that has the last value written to each key. Options that hold the
same under every key are equal, and only these have the same text. Of three layers of options it
does not matter which two are put together first, and a layer of no options changes nothing.

The arguments of pairs with others behind them are the arguments of these others over those of the
pairs, slot by slot. Each slot holds what the last of its pairs says, so lists of pairs make the
same arguments exactly when their last pairs of each slot say the same. Pairs of different slots may
change places. -/
theorem last_write_wins :
    (∀ (options : Options) (changes : List Change) (key : String),
      (options.after changes).get? key =
        (lastWrite? (Change.written? key) changes).or (options.get? key)) ∧
    (∀ (changes : List Change) (entries : List (String × String)),
      (Options.empty.after changes).pairs = entries ↔
        entries.Pairwise (fun entry later => entry.1 < later.1) ∧
          ∀ key value, (key, value) ∈ entries ↔
            lastWrite? (Change.written? key) changes = some value) ∧
    (∀ options other : Options,
      ((∀ key, options.get? key = other.get? key) ↔ options = other) ∧
        (Json.compact options.document = Json.compact other.document ↔ options = other) ∧
        (Json.pretty options.document = Json.pretty other.document ↔ options = other)) ∧
    (∀ first second third : Options,
      (first.merge second).merge third = first.merge (second.merge third) ∧
        first.merge .empty = first ∧ Options.empty.merge first = first) ∧
    (∀ pairs others : List (String × String),
      Arguments.ofPairs (pairs ++ others) =
        (Arguments.ofPairs pairs).overlay (Arguments.ofPairs others)) ∧
    (∀ (arguments other : Arguments) (slot : Slot),
      (arguments.overlay other).slot? slot = (other.slot? slot).or (arguments.slot? slot)) ∧
    (∀ (pairs : List (String × String)) (slot : Slot),
      (Arguments.ofPairs pairs).slot? slot = lastWrite? slot.written? pairs) ∧
    (∀ pairs others : List (String × String),
      Arguments.ofPairs pairs = Arguments.ofPairs others ↔
        ∀ slot : Slot, lastWrite? slot.written? pairs = lastWrite? slot.written? others) ∧
    ∀ pairs others : List (String × String),
      (∀ slot, (pairs.filter fun pair => Slot.ofKey pair.1 = slot) =
        others.filter fun pair => Slot.ofKey pair.1 = slot) →
      Arguments.ofPairs pairs = Arguments.ofPairs others := by
  refine ⟨Options.get?_after, ?_, ?_, ?_, Arguments.of_pairs_append, Arguments.slot?_overlay,
    Arguments.slot?_of_pairs, fun pairs others => Arguments.of_pairs_eq_iff,
    fun pairs others => Arguments.of_pairs_reordered⟩
  · intro changes entries
    have hget (key : String) : (Options.empty.after changes).get? key =
        lastWrite? (Change.written? key) changes := by
      rw [Options.get?_after, Options.get?_empty, Option.or_none]
    simp only [Options.pairs_eq_iff, hget]
  · intro options other
    refine ⟨?_, Options.written_eq_iff Json.writes_compact,
      Options.written_eq_iff Json.writes_pretty⟩
    constructor
    · exact Options.ext_get?
    · intro heq key
      rw [heq]
  · intro first second third
    exact ⟨Options.merge_assoc first second third, Options.merge_empty first,
      Options.empty_merge first⟩

/-- Two keys of one slot, whose pairs keep their order while others pass between them. -/
theorem last_write_wins_reordered :
    let pairs := [("file", "a"), ("from", "uml"), ("filename", "b"), ("visibility", "public")]
    let others := [("visibility", "public"), ("file", "a"), ("filename", "b"), ("from", "uml")]
    (∀ slot, (pairs.filter fun pair => Slot.ofKey pair.1 = slot) =
        others.filter fun pair => Slot.ofKey pair.1 = slot) ∧
      Arguments.ofPairs pairs = Arguments.ofPairs others ∧
      (Arguments.ofPairs others).filename = some "b" := by
  intro pairs others
  have hslots : ∀ slot, (pairs.filter fun pair => Slot.ofKey pair.1 = slot) =
      others.filter fun pair => Slot.ofKey pair.1 = slot := by
    intro slot
    cases slot <;> simp [pairs, others, Slot.ofKey, List.filter_cons]
  obtain ⟨-, -, -, -, -, -, -, -, hreordered⟩ := last_write_wins
  exact ⟨hslots, hreordered pairs others hslots, rfl⟩

end Schemata
