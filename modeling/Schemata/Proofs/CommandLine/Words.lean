import Mathlib.Data.List.TakeWhile
import Schemata.CommandLine.Arguments

/-!
# Command lines that are read back

`Request.words` spells a request out as words, each option together with its value. The main
statement, `read_words`, is that these words are read as the request: every value is taken as it
stands, and a key and its value are told apart at the first equals sign.
-/

namespace Schemata.CommandLine

/-- A text with an equals sign is cut at the first one. -/
theorem span_equals {name : List Char} (h : '=' ∉ name) (value : List Char) :
    (name ++ '=' :: value).takeWhile (· != '=') = name ∧
      (name ++ '=' :: value).dropWhile (· != '=') = '=' :: value := by
  have hname : ∀ c ∈ name, (c != '=') = true := by
    intro c hc
    exact bne_iff_ne.2 fun heq => h (heq ▸ hc)
  constructor
  · simp [List.takeWhile_append_of_pos hname]
  · simp [List.dropWhile_append_of_pos hname]

/-- A text is a key and a value when these stand around its first equals sign and the key is not
empty. -/
theorem key_value_eq_some_iff {text key value : String} :
    keyValue? text = some (key, value) ↔
      key ≠ "" ∧ '=' ∉ key.toList ∧ text = key ++ "=" ++ value := by
  constructor
  · intro h
    have hsplit := List.takeWhile_append_dropWhile (p := (· != '=')) (l := text.toList)
    have hno : '=' ∉ text.toList.takeWhile (· != '=') := fun hmem => by
      simpa using List.mem_takeWhile_imp hmem
    cases hrest : text.toList.dropWhile (· != '=') with
    | nil => simp [keyValue?, hrest] at h
    | cons c rest =>
        have hequals : c = '=' := by
          have hhead := List.head?_dropWhile_not (· != '=') text.toList
          simpa [hrest] using hhead
        simp only [keyValue?, hrest] at h
        split at h
        · cases h
        · rename_i hkey
          cases h
          refine ⟨by simpa using hkey, by simpa using hno, ?_⟩
          rw [hrest, hequals] at hsplit
          exact String.toList_inj.1 (by simpa using hsplit.symm)
  · rintro ⟨hne, hno, rfl⟩
    obtain ⟨htake, hdrop⟩ := span_equals hno value.toList
    have hkey : key.toList ≠ [] := by simpa using hne
    simp [keyValue?, htake, hdrop, hkey]

/-- The word for an option and its value. -/
def optionWord (name value : String) : String :=
  "--" ++ (name ++ "=" ++ value)

/-- The word for an option that may be left out. -/
def optionWords (name : String) (value? : Option String) : List String :=
  value?.toList.map (optionWord name)

/-- Words that ask for a request. The input stands behind a separator, so that it may start with a
dash. -/
def Request.words (request : Request) : List String :=
  "translate" ::
    (optionWords "from" request.parser ++
      (optionWords "to" request.producer ++
        (optionWords "visibility" request.visibility ++
          (optionWords "config" request.config ++
            (optionWords "output" request.output ++
              (request.options.map (fun pair => optionWord "option" (pair.1 ++ "=" ++ pair.2)) ++
                request.input.toList.flatMap (["--", ·])))))))

/-- Whether the values of a request can be given: paths and keys are not empty, and no key has an
equals sign. -/
structure Request.Writable (request : Request) : Prop where
  input : request.input ≠ some ""
  config : request.config ≠ some ""
  output : request.output ≠ some ""
  options : ∀ pair ∈ request.options, pair.1 ≠ "" ∧ '=' ∉ pair.1.toList

theorem word_of_option_word {name : String} (h : '=' ∉ name.toList) (value : String) :
    Word.of (optionWord name value) = .long name (some value) := by
  obtain ⟨htake, hdrop⟩ := span_equals h value.toList
  have hword : (optionWord name value).toList = '-' :: '-' :: (name.toList ++ '=' :: value.toList) := by
    simp [optionWord]
  have hbody : name.toList ++ '=' :: value.toList ≠ [] := by simp
  rw [Word.of, hword]
  cases hcons : name.toList ++ '=' :: value.toList with
  | nil => exact absurd hcons hbody
  | cons c rest => simp [splitLong, ← hcons, htake, hdrop]

variable {request : Request}

/-- A word for an option is taken up at once. -/
theorem read_option_word {name : String} {slot : Slot} (hname : '=' ∉ name.toList)
    (hslot : Slot.ofName? name = some slot) {value : String} {taken : Request}
    (htake : request.take slot value = .ok taken) (rest : List String) :
    readWords true { request } false (optionWord name value :: rest) =
      readWords true { request := taken } false rest := by
  simp [readWords, word_of_option_word hname, State.long, hslot, State.attach, State.settle, htake,
    bind, Except.bind, pure, Except.pure]

/-- The word for an option that may be left out is taken up if it is there. -/
theorem read_option_words {name : String} {slot : Slot} (hname : '=' ∉ name.toList)
    (hslot : Slot.ofName? name = some slot) {update : Option String → Request}
    (hnone : update none = request) {value? : Option String}
    (htake : ∀ value, value? = some value → request.take slot value = .ok (update (some value)))
    (rest : List String) :
    readWords true { request } false (optionWords name value? ++ rest) =
      readWords true { request := update value? } false rest := by
  cases value? with
  | none => simp [optionWords, hnone]
  | some value => exact read_option_word hname hslot (htake value rfl) rest

/-- The words for pairs add these to the request. -/
theorem read_pair_words {pairs : List (String × String)}
    (h : ∀ pair ∈ pairs, pair.1 ≠ "" ∧ '=' ∉ pair.1.toList) (rest : List String) :
    readWords true { request } false
        (pairs.map (fun pair => optionWord "option" (pair.1 ++ "=" ++ pair.2)) ++ rest) =
      readWords true { request := { request with options := request.options ++ pairs } } false
        rest := by
  induction pairs generalizing request with
  | nil => simp
  | cons pair pairs ih =>
      obtain ⟨hkey, hpairs⟩ := List.forall_mem_cons.1 h
      have hpair : keyValue? (pair.1 ++ "=" ++ pair.2) = some pair :=
        key_value_eq_some_iff.2 ⟨hkey.1, hkey.2, rfl⟩
      have htake : request.take .option (pair.1 ++ "=" ++ pair.2) =
          .ok { request with options := request.options ++ [pair] } := by
        simp [Request.take, Slot.isPath, hpair]
      rw [List.map_cons, List.cons_append, read_option_word (by decide) rfl htake, ih hpairs,
        List.append_assoc, List.singleton_append]

/-- The input is taken up at the end of the words. -/
theorem read_input_words {input : Option String} (h : input ≠ some "")
    (hnone : request.input = none) :
    readWords true { request } false (input.toList.flatMap (["--", ·])) =
      .ok { request := { request with input }, hasInput := input.isSome } := by
  obtain ⟨given, parser, producer, visibility, config, output, options⟩ := request
  obtain rfl : given = none := hnone
  cases input with
  | none => rfl
  | some path =>
      have hpath : path ≠ "" := fun heq => h (by rw [heq])
      have hseparator : Word.of "--" = .separator := rfl
      simp [readWords, hseparator, State.setInput, State.settle, Request.take, Slot.isPath, hpath,
        fill, bind, Except.bind, pure, Except.pure]

/-- A request that can be given is read back from its words. -/
theorem read_words {request : Request} (h : request.Writable) :
    read request.words = .ok (.translate request) := by
  obtain ⟨input, parser, producer, visibility, config, output, options⟩ := request
  obtain ⟨hinput, hconfig, houtput, hoptions⟩ := h
  have hpath {slot : Slot} {value? : Option String} {value : String} (hne : value? ≠ some "")
      (hvalue : value? = some value) : (slot.isPath && value.isEmpty) = false := by
    have hvalue : value ≠ "" := fun heq => hne (heq ▸ hvalue)
    simp [hvalue]
  have hread : readWords true {} false
      (Request.mk input parser producer visibility config output options).words.tail =
        .ok
          { request := { input, parser, producer, visibility, config, output, options }
            hasInput := input.isSome } := by
    -- what was taken up so far is given to each step, as it cannot be told from the words
    rw [Request.words, List.tail_cons,
      @read_option_words {} "from" .parser (by decide) rfl (fun parser => { parser }) rfl parser
        (fun value _ => rfl),
      @read_option_words _ "to" .producer (by decide) rfl
        (fun producer => { parser, producer }) rfl producer (fun value _ => rfl),
      @read_option_words _ "visibility" .visibility (by decide) rfl
        (fun visibility => { parser, producer, visibility }) rfl visibility (fun value _ => rfl),
      @read_option_words _ "config" .config (by decide) rfl
        (fun config => { parser, producer, visibility, config }) rfl config
        (fun value hvalue => by simp [Request.take, hpath hconfig hvalue, fill]),
      @read_option_words _ "output" .output (by decide) rfl
        (fun output => { parser, producer, visibility, config, output }) rfl output
        (fun value hvalue => by simp [Request.take, hpath houtput hvalue, fill]),
      read_pair_words hoptions, read_input_words hinput rfl]
    rfl
  have htranslate : Word.of "translate" = .plain := rfl
  rw [read, Request.words, readTop, htranslate]
  simp only [if_true]
  rw [Request.words, List.tail_cons] at hread
  rw [hread]
  rfl

end Schemata.CommandLine
