import Schemata.Document.Yaml.Decoding
import Schemata.Proofs.Document.Yaml.Nodes

/-!
# Decoding written documents

What is written is decoded from its own tree, `decode_write`. A text that looks like nothing, like a
truth value or like a number is never written plain, so that it is present where it may be absent.
-/

namespace Schemata.Yaml

/-- A text that is written plain is not written like nothing. -/
theorem present_of_plain {content : String} (h : Writing.of content.toList = .plain) :
    (content.isEmpty || Scalar.isNull content) = false := by
  have hmeaning := (Writing.of_eq_plain h).1
  cases hnull : content.isEmpty || Scalar.isNull content with
  | false => rfl
  | true =>
      rw [Writing.isAmbiguous, String.ofList_toList, Scalar.meaning, if_pos hnull] at hmeaning
      cases hmeaning

theorem spelling_faithful : spelling.Faithful dialect where
  null := rfl
  flag value := by cases value <;> rfl
  text _ _ := rfl
  present content := by
    cases h : Writing.of content.toList with
    | plain =>
        have hpresent := present_of_plain h
        simp [spelling, dialect, Scalar.absent, h, Writing.style, hpresent]
    | single | double | literal => simp [spelling, dialect, Scalar.absent, h, Writing.style]
  key _ _ := rfl

/-- The document of an object is read as its tree, and nothing is after it. -/
theorem read_write {value : Value} (h : OutlinedObject value) :
    (Document.read (write value).toList).root = value.tree spelling ∧
      (Document.read (write value).toList).after = none := by
  have hscan := scan_write h
  obtain ⟨hmembers⟩ := h
  rename_i first others
  rw [valueTokens] at hscan
  have hdocument : Document.read (write (.object (first :: others))).toList =
      Document.content Document.defaultHandles false
        (scan (write (.object (first :: others))).toList) := by
    rw [Document.read, hscan]
    rfl
  generalize scan (write (.object (first :: others))).toList = tokens at hscan hdocument
  -- a node takes at most three turns for each of its tokens
  have hfuel : 3 * (memberTokens (first :: others)).length + 1 ≤ 4 * tokens.length + 7 := by
    simp only [hscan, List.length_append, List.length_cons, List.length_nil]
    omega
  have hobject : Node.Takes (Node.read (4 * tokens.length + 8) .block) _ _ _ :=
    (Node.members_take hmembers hfuel [.streamEnd]).object (by simp)
  obtain ⟨size, hroot⟩ := hobject ⟨tokens, Document.defaultHandles, [], 0, [], 0⟩ hscan
  rw [hdocument, Document.content]
  simp only [Bool.false_and, Bool.false_eq_true, if_false, hroot]
  exact ⟨rfl, rfl⟩

/-- What is decoded from a written object is what a decoder makes of its tree. -/
theorem decode_write {α : Type} {decoder : Decoder Leaf Fault α} {value : Value} {content : α}
    (h : OutlinedObject value)
    (hdecode : ∀ scope : Scope Leaf Fault, scope.dialect = dialect →
      decoder scope [] (value.tree spelling) = pure content) :
    decode decoder (write value) = .ok content := by
  obtain ⟨hroot, hafter⟩ := read_write h
  simp [decode, hroot, hafter, hdecode, StateT.run, pure, StateT.pure, Except.pure]

end Schemata.Yaml
