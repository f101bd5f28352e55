import Schemata.Proofs.Pipeline.Engine

/-!
# Inputs that hold the same text

A text can be given as it is, among arguments, in a file or by a stream. `Stream.Delivers` says which
bytes a stream delivers, in chunks that may be cut anywhere; how they are cut does not show,
`read_text_delivered`. The main statement, `input_shapes`, is that a translation depends on the text
and not on how it is given.
-/

namespace Schemata

/-- The bytes of a text are read as the text. -/
theorem decode_text_utf8 (content : String) : decodeText content.toUTF8 = .ok content := by
  have hread : String.fromUTF8? content.toUTF8 = some content := dif_pos content.isValidUTF8
  rw [decodeText, hread]

/-- Bytes that are not those of any text are refused. -/
theorem decode_text_refused {bytes : ByteArray} (h : ∀ content : String, content.toUTF8 ≠ bytes) :
    decodeText bytes = .error notUtf8 := by
  have hinvalid : ¬ bytes.IsValidUTF8 := fun hvalid => h (.fromUTF8 bytes hvalid) rfl
  have hread : String.fromUTF8? bytes = none := dif_neg hinvalid
  rw [decodeText, hread]

namespace Stream

/-- Whether a stream delivers some bytes, in chunks of any positive sizes. -/
structure Delivers (stream : Stream) (bytes : ByteArray) : Prop where
  positive : ∀ chunk ∈ stream.chunks, chunk.isEmpty = false
  whole : stream.chunks.foldl (· ++ ·) ByteArray.empty = bytes

/-- Chunks that are not empty are put together, up to the failure if there is one. -/
theorem drain_eq {chunks : List ByteArray} (h : ∀ chunk ∈ chunks, chunk.isEmpty = false)
    (failure : Option String) (buffer : ByteArray) :
    drain failure buffer chunks = (chunks.foldl (· ++ ·) buffer, failure) := by
  induction chunks generalizing buffer with
  | nil => rfl
  | cons chunk rest ih =>
      have hchunk : chunk.isEmpty = false := h chunk List.mem_cons_self
      rw [drain, hchunk, List.foldl_cons]
      exact ih (fun other hother => h other (List.mem_cons_of_mem chunk hother)) (buffer ++ chunk)

variable {stream : Stream} {bytes : ByteArray}

/-- A stream that ends is read as all of its bytes. -/
theorem read_text_delivered (h : stream.Delivers bytes) (hend : stream.failure = none) :
    stream.readText = decodeText bytes := by
  rw [readText, drain_eq h.positive, h.whole, hend]

/-- A stream that fails is told to fail, whatever it delivered. -/
theorem read_text_failed (h : stream.Delivers bytes) {reason : String}
    (hfails : stream.failure = some reason) : stream.readText = .error reason := by
  rw [readText, drain_eq h.positive, hfails]

end Stream

/-- A turn with more in front of its journal. -/
def Turn.behind {α : Type} (turn : Turn α) (journal : Journal) : Turn α :=
  { turn with journal := journal ++ turn.journal }

namespace Input

theorem normalize_file {files : Files} {path : String} {bytes : ByteArray} (given : Arguments)
    (h : files path = .ok bytes) :
    (arguments { given with data := none, filename := some path }).normalize files =
      match decodeText bytes with
      | .error reason => ([], .error (.io "read" path reason))
      | .ok content =>
        ([fileRead path content],
          .ok
            { payload := some content
              arguments := { given with data := none, filename := some path } }) := by
  have hread : files.readText path = decodeText bytes := by
    rw [Files.readText, h]
    rfl
  simp only [normalize, toArguments, load, hread]
  cases decodeText bytes <;> rfl

theorem normalize_stream (files : Files) (source : Stream) :
    (stream source).normalize files =
      match source.readText with
      | .error reason => ([], .error (.io "read" "<stream>" reason))
      | .ok content => ([drained content], .ok { payload := some content, arguments := {} }) := by
  simp only [normalize, toArguments]
  cases source.readText <;> rfl

end Input

namespace Engine

open Input (drained fileRead)

/-- An input with a text is translated as the arguments that hold the text themselves. -/
theorem translate_payload {engine : Engine} {registry : Registry} {files : Files} {input : Input}
    {journal : Journal} {content : String} {given : Arguments}
    (hread : input.normalize files = (journal, .ok { payload := some content, arguments := given })) :
    engine.translate registry files input =
      (engine.translate registry files (.arguments { given with data := some content })).behind
        journal := by
  have hdata : (Input.arguments { given with data := some content }).normalize files =
    ([], .ok { payload := some content, arguments := { given with data := none } }) := rfl
  simp only [translate, hread, hdata, Turn.behind, List.nil_append]
  rfl

/-- A text is translated in the same way whether it is given as it is, in a buffer, among arguments
whatever file they name, in a file or by a stream, however the stream is cut into chunks; only the
journal says how it was read. Bytes that are not a text are refused from a file and from a stream
alike. A stream that fails gives nothing but its failure, whatever it delivered. -/
theorem input_shapes (engine : Engine) (registry : Registry) (files : Files) :
    let translate := engine.translate registry files
    (∀ content : String,
      translate (.buffer content) = translate (.text content) ∧
      (∀ filename, translate (.arguments { data := some content, filename }) =
        translate (.text content)) ∧
      (∀ path, files path = .ok content.toUTF8 →
        translate (.path path) = (translate (.text content)).behind [fileRead path content] ∧
        translate (.arguments { filename := some path }) =
          (translate (.text content)).behind [fileRead path content]) ∧
      ∀ source : Stream, source.Delivers content.toUTF8 → source.failure = none →
        translate (.stream source) = (translate (.text content)).behind [drained content]) ∧
    (∀ (given : Arguments) (content : String),
      let turn := translate (.arguments { given with data := some content })
      (∀ filename, translate (.arguments { given with data := some content, filename }) = turn) ∧
      ∀ path, files path = .ok content.toUTF8 →
        translate (.arguments { given with data := none, filename := some path }) =
          turn.behind [fileRead path content]) ∧
    (∀ (bytes : ByteArray) (path : String) (source : Stream), files path = .ok bytes →
      source.Delivers bytes → source.failure = none →
        (∀ content : String, content.toUTF8 = bytes →
          (Input.path path).normalize files =
            ([fileRead path content],
              .ok { payload := some content, arguments := { filename := some path } }) ∧
          (Input.stream source).normalize files =
            ([drained content], .ok { payload := some content, arguments := {} })) ∧
        ((∀ content : String, content.toUTF8 ≠ bytes) →
          (Input.path path).normalize files = ([], .error (.io "read" path notUtf8)) ∧
          (Input.stream source).normalize files =
            ([], .error (.io "read" "<stream>" notUtf8)))) ∧
    ∀ (bytes : ByteArray) (source : Stream) (reason : String), source.Delivers bytes →
      source.failure = some reason →
        translate (.stream source) =
          { engine, registry, journal := [], result := .error (.io "read" "<stream>" reason) } := by
  intro translate
  have hfile {path : String} {content : String} (given : Arguments)
      (h : files path = .ok content.toUTF8) :
      translate (.arguments { given with data := none, filename := some path }) =
        (translate (.arguments { given with data := some content })).behind
          [fileRead path content] := by
    have hread : (Input.arguments { given with data := none, filename := some path }).normalize
        files = ([fileRead path content],
          .ok
            { payload := some content
              arguments := { given with data := none, filename := some path } }) := by
      rw [Input.normalize_file given h, decode_text_utf8]
    have hturn := @translate_payload engine registry files _ _ _ _ hread
    -- these arguments still name the file, which is not read beside a text
    exact hturn
  refine ⟨?_, ?_, ?_, ?_⟩
  · intro content
    refine ⟨rfl, fun filename => rfl, fun path h => ⟨hfile {} h, hfile {} h⟩, ?_⟩
    intro source hdelivers hend
    have hread := Input.normalize_stream files source
    rw [Stream.read_text_delivered hdelivers hend, decode_text_utf8] at hread
    exact translate_payload hread
  · intro given content turn
    exact ⟨fun filename => rfl, fun path h => hfile given h⟩
  · intro bytes path source hbytes hdelivers hend
    have hpath : (Input.path path).normalize files = _ := Input.normalize_file {} hbytes
    have hstream := Input.normalize_stream files source
    rw [Stream.read_text_delivered hdelivers hend] at hstream
    constructor
    · rintro content rfl
      rw [decode_text_utf8] at hpath hstream
      exact ⟨hpath, hstream⟩
    · intro hinvalid
      rw [decode_text_refused hinvalid] at hpath hstream
      exact ⟨hpath, hstream⟩
  · intro bytes source reason hdelivers hfails
    have hstream := Input.normalize_stream files source
    rw [Stream.read_text_failed hdelivers hfails] at hstream
    exact translate_unread hstream

/-- A character may come in parts, and a stream may fail in the middle of one. -/
theorem input_shapes_in_parts :
    let place := start .builtin
    let files : Files := fun _ => .ok ⟨#[0xc3, 0x21]⟩
    let parts : Stream := { chunks := [⟨#[0xc3]⟩, ⟨#[0xa9, 0x21]⟩] }
    let broken : Stream := { chunks := [⟨#[0xc3]⟩], failure := some "reset" }
    let translate := place.1.translate place.2 files
    parts.Delivers "é!".toUTF8 ∧ broken.Delivers ⟨#[0xc3]⟩ ∧
      translate (.stream parts) = (translate (.text "é!")).behind [drained "é!"] ∧
      (translate (.stream broken)).result = .error (.io "read" "<stream>" "reset") := by
  intro place files parts broken translate
  have hparts : parts.Delivers "é!".toUTF8 := ⟨by decide, by decide⟩
  have hbroken : broken.Delivers ⟨#[0xc3]⟩ := ⟨by decide, by decide⟩
  obtain ⟨htext, -, -, hfails⟩ := input_shapes place.1 place.2 files
  refine ⟨hparts, hbroken, (htext "é!").2.2.2 parts hparts rfl, ?_⟩
  exact congrArg Turn.result (hfails _ broken "reset" hbroken rfl)

end Engine

end Schemata
