/-!
# Roles and names of plugins

A plugin serves as a parser or as a producer. Its name is a row of words joined by double colons; a
single word is short for a name in the space of its role.
-/

namespace Schemata

/-- Which side of a translation a plugin serves. -/
inductive Role where
  | parser
  | producer
  deriving DecidableEq, Repr

namespace Role

/-- The name of a role. -/
def name : Role → String
  | parser => "parser"
  | producer => "producer"

/-- What stands before the short names of a role. -/
def space : Role → String
  | parser => "sqlt::parser::"
  | producer => "sqlt::producer::"

end Role

namespace Identifier

/-- A character that a word starts with. -/
def isStart (c : Char) : Bool := c.isAlpha || c == '_'

/-- A character within a word. -/
def isPart (c : Char) : Bool := c.isAlphanum || c == '_'

/-- Whether the characters form a word. -/
def isWord : List Char → Bool
  | [] => false
  | c :: rest => isStart c && rest.all isPart

/-- What stands between the double colons of a text. -/
def words : List Char → List (List Char)
  | [] => [[]]
  | ':' :: ':' :: rest => [] :: words rest
  | c :: rest =>
    match words rest with
    | [] => [[c]]
    | first :: others => (c :: first) :: others

/-- Whether a text is a row of words. -/
def isWellFormed (text : String) : Bool :=
  (words text.toList).all isWord

/-- Whether a text has a double colon. -/
def isQualified (text : String) : Bool :=
  1 < (words text.toList).length

end Identifier

/-- The full name that a text is short for; a text with a double colon stands for itself. -/
def Role.qualify (role : Role) (text : String) : String :=
  if Identifier.isQualified text then text else role.space ++ text

end Schemata
