/-!
# Values that documents are written from
-/

namespace Schemata

/-- What a document writer is given: the members of an object stay in order. -/
inductive Value where
  | null
  | flag (value : Bool)
  | text (content : String)
  | list (items : List Value)
  | object (members : List (String × Value))

namespace Value

/-- A text, or the null value in its place. -/
def optional (content : Option String) : Value :=
  content.elim null text

/-- A member that is left out when there is nothing to say. -/
def whenSome (key : String) (content : Option String) : List (String × Value) :=
  match content with
  | none => []
  | some given => [(key, text given)]

end Value

end Schemata
