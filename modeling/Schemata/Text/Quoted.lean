import Schemata.Text.Hexadecimal
import Schemata.Text.Hidden

/-!
# Quoted text

How a text is shown in a message: between double quotes, with the quote, the backslash and four
controls written by a letter and every hidden character by its number. A path is quoted in the same
way and escapes the apostrophe too.
-/

namespace Schemata.Text

/-- The written form of one character inside quotes. -/
def escape (apostrophe : Bool) (c : Char) : String :=
  if c = '\x00' then "\\0"
  else if c = '\t' then "\\t"
  else if c = '\r' then "\\r"
  else if c = '\n' then "\\n"
  else if c = '\\' then "\\\\"
  else if c = '"' then "\\\""
  else if apostrophe && c = '\'' then "\\'"
  else if c.toNat < 0x20 || (0x7e < c.toNat && isHidden c) then
    "\\u\x7b" ++ hexadecimal c.toNat ++ "\x7d"
  else c.toString

/-- The text between double quotes. -/
def quote (text : String) : String :=
  "\"" ++ String.join (text.toList.map (escape false)) ++ "\""

/-- A path between double quotes. -/
def quotePath (path : String) : String :=
  "\"" ++ String.join (path.toList.map (escape true)) ++ "\""

end Schemata.Text
