import Schemata.Document.Json.Literal
import Schemata.Document.Json.Writer

/-!
# Reading written literals

`WrittenPieces` lists the ways to write the pieces of a literal, and `scan_pieces` says that they are
scanned back. The pieces stand for the text that they spell out, if they spell one out,
`denote_eq_ok_iff`: a character may be written as it is, by a letter, by one number or by a pair of
them.
-/

namespace Schemata.Json

/-- A hexadecimal digit is read back. -/
theorem hex_value_hex_digit : ∀ n < 16, Text.hexValue? (hexDigit n) = some n := by decide

/-- The two zeros and two digits of a written control are read back. -/
theorem hex_number_control {n : Nat} (h : n < 0x20) :
    Text.hexNumber? ['0', '0', hexDigit (n / 16), hexDigit n] = some n := by
  have hlow : hexDigit n = hexDigit (n % 16) := by simp [hexDigit]
  have hzero : Text.hexValue? '0' = some 0 := by decide
  have hdigits : (0 * 16 + n / 16) * 16 + n % 16 = n := by omega
  simp [Text.hexNumber?, hlow, hzero, hex_value_hex_digit (n / 16) (by omega),
    hex_value_hex_digit (n % 16) (by omega)]
  omega

namespace Literal

/-- The piece that a written character is scanned into: controls without a letter are numbered. -/
def piece (c : Char) : Piece :=
  if c.toNat < 0x20 ∧ c ∉ ['\x08', '\x0c', '\n', '\r', '\t'] then .unit c.toNat else .char c

/-- A character that needs no escape is a piece of its own. -/
theorem scan_plain {c : Char} (hquote : c ≠ '"') (hescape : c ≠ '\\') (hlow : ¬ c.toNat < 0x20)
    (rest : List Char) : scan (c :: rest) = push (.char c) (scan rest) := by
  simp [scan, hescape, hlow]

/-- Ways to write one piece of a literal. -/
inductive WrittenPiece : Piece → List Char → Prop where
  | plain {c : Char} (hquote : c ≠ '"') (hescape : c ≠ '\\') (hlow : ¬ c.toNat < 0x20) :
      WrittenPiece (.char c) [c]
  | letter {c meant : Char} (hletter : letter? c = some meant) :
      WrittenPiece (.char meant) ['\\', c]
  | digits {a b c d : Char} {value : Nat} (hdigits : Text.hexNumber? [a, b, c, d] = some value) :
      WrittenPiece (.unit value) ['\\', 'u', a, b, c, d]

/-- Ways to write the pieces of a literal, with the quote after them. -/
inductive WrittenPieces : List Piece → List Char → Prop where
  | nil : WrittenPieces [] ['"']
  | cons {piece : Piece} {pieces : List Piece} {text rest : List Char}
      (hpiece : WrittenPiece piece text) (hpieces : WrittenPieces pieces rest) :
      WrittenPieces (piece :: pieces) (text ++ rest)

theorem scan_piece {piece : Piece} {text : List Char} (h : WrittenPiece piece text)
    (rest : List Char) : scan (text ++ rest) = push piece (scan rest) := by
  cases h with
  | plain hquote hescape hlow => exact scan_plain hquote hescape hlow rest
  | letter hletter =>
      unfold letter? at hletter
      split at hletter <;> cases hletter <;> rfl
  | digits hdigits => simp only [List.cons_append, List.nil_append, scan, hdigits]

/-- A written literal is scanned into its pieces, whatever follows it. -/
theorem scan_pieces {pieces : List Piece} {text : List Char} (h : WrittenPieces pieces text)
    (rest : List Char) : scan (text ++ rest) = (pieces, .closed rest) := by
  induction h with
  | nil => rfl
  | cons hpiece hpieces ih =>
      rw [List.append_assoc, scan_piece hpiece, ih]
      rfl

theorem encode_char_written (c : Char) : WrittenPiece (piece c) (encodeChar c) := by
  unfold encodeChar
  split
  · subst_vars; exact .letter rfl
  split
  · subst_vars; exact .letter rfl
  split
  · subst_vars; exact .letter rfl
  split
  · subst_vars; exact .letter rfl
  split
  · subst_vars; exact .letter rfl
  split
  · subst_vars; exact .letter rfl
  split
  · subst_vars; exact .letter rfl
  split
  · rename_i hlow
    have hpiece : piece c = .unit c.toNat := by
      simp_all [piece]
    rw [hpiece]
    exact .digits (hex_number_control hlow)
  · rename_i hlow
    have hpiece : piece c = .char c := by
      simp [piece, hlow]
    rw [hpiece]
    exact .plain ‹_› ‹_› hlow

theorem encode_written (text : List Char) :
    WrittenPieces (text.map piece) (text.flatMap encodeChar ++ ['"']) := by
  induction text with
  | nil => exact .nil
  | cons c text ih =>
      rw [List.flatMap_cons, List.append_assoc]
      exact .cons (encode_char_written c) ih

/-- Pieces that spell a text out, character by character. -/
inductive Spelled : List Char → List Piece → Prop where
  | nil : Spelled [] []
  | char {c : Char} {text : List Char} {pieces : List Piece} (h : Spelled text pieces) :
      Spelled (c :: text) (.char c :: pieces)
  | unit {value : Nat} {text : List Char} {pieces : List Piece}
      (htrailing : isTrailing value = false) (hleading : isLeading value = false)
      (h : Spelled text pieces) : Spelled (Char.ofNat value :: text) (.unit value :: pieces)
  | pair {leading trailing : Nat} {text : List Char} {pieces : List Piece}
      (hleading : isLeading leading = true) (htrailing : isTrailing trailing = true)
      (h : Spelled text pieces) :
      Spelled (Literal.pair leading trailing :: text) (.unit leading :: .unit trailing :: pieces)

theorem map_eq_ok_iff {f : List Char → List Char} {result : Except Fault (List Char)}
    {text : List Char} : f <$> result = .ok text ↔ ∃ inner, result = .ok inner ∧ f inner = text := by
  cases result <;> simp [Functor.map, Except.map]

theorem trailing_of_leading {value : Nat} (h : isLeading value = true) :
    isTrailing value = false := by
  simp only [isLeading, isTrailing, Bool.and_eq_true, decide_eq_true_eq, Bool.and_eq_false_imp,
    decide_eq_false_iff_not] at h ⊢
  omega

/-- The pieces of a closed literal stand for the text that they spell out, and for none if they
spell none out. -/
theorem denote_eq_ok_iff {rest text : List Char} {pieces : List Piece} :
    denote (.closed rest) pieces = .ok text ↔ Spelled text pieces := by
  constructor
  · intro hdenote
    -- in all cases but these four the pieces stand for no text
    fun_induction denote (.closed rest) pieces generalizing text with
    | case1 =>
        cases hdenote
        exact .nil
    | case3 c pieces ih =>
        obtain ⟨text, htext, rfl⟩ := map_eq_ok_iff.1 hdenote
        exact .char (ih htext)
    | case7 leading htrailing hleading other pieces hother ih =>
        obtain ⟨text, htext, rfl⟩ := map_eq_ok_iff.1 hdenote
        exact .pair hleading hother (ih htext)
    | case9 value pieces htrailing hleading ih =>
        obtain ⟨text, htext, rfl⟩ := map_eq_ok_iff.1 hdenote
        exact .unit (by simpa using htrailing) (by simpa using hleading) (ih htext)
    | _ => cases hdenote
  · intro h
    induction h with
    | nil => rfl
    | char h ih => rw [denote, ih]; rfl
    | unit htrailing hleading h ih =>
        rw [denote.eq_def]
        simp [htrailing, hleading, ih, Functor.map, Except.map]
    | pair hleading htrailing h ih =>
        rw [denote.eq_def]
        simp [htrailing, hleading, trailing_of_leading hleading, ih, Functor.map, Except.map]

/-- What stands after a closed literal has no part in what its pieces stand for. -/
theorem denote_closed (rest : List Char) (pieces : List Piece) :
    denote (.closed rest) pieces = denote (.closed []) pieces := by
  fun_induction denote (.closed []) pieces with
  | case1 => rfl
  | case2 fault hfault => cases hfault
  | case3 c pieces ih => rw [denote, ih]
  | case4 value pieces htrailing => rw [denote.eq_def]; simp [htrailing]
  | case5 value htrailing hleading => rw [denote.eq_def]; simp [htrailing, hleading, afterLeading]
  | case6 value htrailing hleading => rw [denote.eq_def]; simp [htrailing, hleading]
  | case7 value htrailing hleading other pieces hother ih =>
      rw [denote.eq_def]; simp [htrailing, hleading, hother, ih]
  | case8 value htrailing hleading other pieces hother =>
      rw [denote.eq_def]; simp [htrailing, hleading, hother]
  | case9 value pieces htrailing hleading ih =>
      rw [denote.eq_def]; simp [htrailing, hleading, ih]

/-- What pieces stand for once their literal is closed. -/
def content (pieces : List Piece) : Except Fault String :=
  String.ofList <$> denote (.closed []) pieces

/-- Pieces that spell out a text stand for it. -/
theorem content_spelled {text : List Char} {pieces : List Piece} (h : Spelled text pieces) :
    content pieces = .ok (String.ofList text) := by
  rw [content, denote_eq_ok_iff.2 h]
  rfl

theorem spelled_pieces (text : List Char) : Spelled text (text.map piece) := by
  induction text with
  | nil => exact .nil
  | cons c text ih =>
      rw [List.map_cons, piece]
      split
      · rename_i hlow
        have htrailing : isTrailing c.toNat = false := by simp [isTrailing]; omega
        have hleading : isLeading c.toNat = false := by simp [isLeading]; omega
        have hunit := Spelled.unit htrailing hleading ih
        rwa [Char.ofNat_toNat] at hunit
      · exact .char ih

/-- The pieces of a written text stand for it. -/
theorem content_pieces (text : String) : content (text.toList.map piece) = .ok text := by
  rw [content_spelled (spelled_pieces text.toList), String.ofList_toList]

end Literal

end Schemata.Json
