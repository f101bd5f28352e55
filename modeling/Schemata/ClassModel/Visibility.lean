import Schemata.Text.Whitespace

/-!
# Visibility

How open a class or an attribute is, and which nodes a filter admits. A filter admits the nodes that
are at least as open as itself, and no filter admits every node.
-/

namespace Schemata

/-- How open a node of a class model is. -/
inductive Visibility where
  | «public»
  | «protected»
  | «private»
  deriving DecidableEq, Repr

namespace Visibility

/-- Larger means more restricted. -/
def rank : Visibility → Nat
  | «public» => 1
  | «protected» => 2
  | «private» => 3

/-- The name in lower case. -/
def name : Visibility → String
  | «public» => "public"
  | «protected» => "protected"
  | «private» => "private"

/-- The visibility a text names, in any case of ASCII letters and with blanks around it. -/
def ofText? (text : String) : Option Visibility :=
  let word := String.ofList ((Text.trim text.toList).map Char.toLower)
  if word == "public" then some «public»
  else if word == "protected" then some «protected»
  else if word == "private" then some «private»
  else none

/-- What a refused text is told. -/
def unknownMessage (text : String) : String :=
  "Unknown visibility '" ++ text ++ "', expected public, protected or private"

/-- Whether a filter lets the node pass. -/
def admittedBy (node : Visibility) : Option Visibility → Bool
  | none => true
  | some limit => node.rank ≤ limit.rank

theorem admittedBy_none (node : Visibility) : node.admittedBy none = true := rfl

theorem admittedBy_some {node limit : Visibility} :
    node.admittedBy (some limit) = true ↔ node.rank ≤ limit.rank := by
  simp [admittedBy]

/-- Every name is read back. -/
theorem ofText?_name (visibility : Visibility) : ofText? visibility.name = some visibility := by
  cases visibility <;> decide

end Visibility

end Schemata
