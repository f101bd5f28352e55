import Schemata.Text.Quoted

/-!
# Outlines

The one-line layout in which diagnostics show structured values: `Name(part)`,
`Name { field: part, … }`, `[part, …]` and `{key: part, …}`. A record that keeps some parts to itself
ends in two dots.
-/

namespace Schemata.Text

/-- A value as a diagnostic shows it. -/
inductive Outline where
  /-- Written as it is. -/
  | word (spelling : String)
  /-- Written between quotes. -/
  | text (value : String)
  /-- Written between quotes as a path. -/
  | path (value : String)
  /-- `[a, b]`. -/
  | list (parts : List Outline)
  /-- Entries between braces, each key before its value. -/
  | map (entries : List (Outline × Outline))
  /-- `Name(a, b)`. -/
  | tuple (name : String) (parts : List Outline)
  /-- A name and its fields between braces. -/
  | record (name : String) (fields : List (String × Outline)) (complete : Bool)

namespace Outline

/-- An optional part: `None`, or `Some` around the part. -/
def optional (part : Option Outline) : Outline :=
  match part with
  | none => word "None"
  | some inner => tuple "Some" [inner]

/-- The parts, a comma and a blank between each two. -/
def commas (parts : List String) : String :=
  ", ".intercalate parts

mutual

/-- The text of an outline. -/
def render : Outline → String
  | word spelling => spelling
  | text value => quote value
  | path value => quotePath value
  | list parts => "[" ++ commas (renderAll parts) ++ "]"
  | map entries => "\x7b" ++ commas (renderEntries entries) ++ "\x7d"
  | tuple name parts => name ++ "(" ++ commas (renderAll parts) ++ ")"
  | record name fields complete =>
    let shown := renderFields fields ++ if complete then [] else [".."]
    name ++ " \x7b " ++ commas shown ++ " \x7d"

/-- The texts of several outlines. -/
def renderAll : List Outline → List String
  | [] => []
  | part :: rest => render part :: renderAll rest

/-- The texts of the entries of a map. -/
def renderEntries : List (Outline × Outline) → List String
  | [] => []
  | (key, value) :: rest => (render key ++ ": " ++ render value) :: renderEntries rest

/-- The texts of the fields of a record. -/
def renderFields : List (String × Outline) → List String
  | [] => []
  | (name, value) :: rest => (name ++ ": " ++ render value) :: renderFields rest

end

end Outline

end Schemata.Text
