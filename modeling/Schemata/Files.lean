/-!
# Files

How a translation sees the files around it: a path leads to the bytes of a file or to the reason why
it cannot be read. `Folder` is a tree of files that can stand in for a file system.
-/

namespace Schemata

/-- What reading each path gives. -/
abbrev Files := String → Except String ByteArray

/-- Why bytes are not a text. -/
def notUtf8 : String := "stream did not contain valid UTF-8"

/-- The text of some bytes. -/
def decodeText (bytes : ByteArray) : Except String String :=
  match String.fromUTF8? bytes with
  | some text => .ok text
  | none => .error notUtf8

/-- The text of a file. -/
def Files.readText (files : Files) (path : String) : Except String String :=
  files path >>= decodeText

/-- The usual reasons why a path cannot be read or written. -/
inductive PathFault where
  | missing
  | notFolder
  | isFolder
  | nameTooLong
  | hasNul
  deriving DecidableEq, Repr

/-- The message of a reason. -/
def PathFault.message : PathFault → String
  | missing => "No such file or directory (os error 2)"
  | notFolder => "Not a directory (os error 20)"
  | isFolder => "Is a directory (os error 21)"
  | nameTooLong => "File name too long (os error 36)"
  | hasNul => "file name contained an unexpected NUL byte"

/-- A file or a folder. -/
inductive Entry where
  | file (content : ByteArray)
  | folder (entries : List (String × Entry))

namespace Entry

/-- The entry of a name in a folder. -/
def child? (entries : List (String × Entry)) (name : String) : Option Entry :=
  entries.lookup name

/-- Put an entry in a folder, in place of an earlier one of its name. -/
def putChild (name : String) (entry : Entry) : List (String × Entry) → List (String × Entry)
  | [] => [(name, entry)]
  | other :: rest =>
    if other.1 = name then (name, entry) :: rest else other :: putChild name entry rest

/-- Put an entry at the end of a row of names, and make the folders on the way. -/
def put (entry : Entry) : List String → Entry → Entry
  | [], _ => entry
  | name :: names, here =>
    let entries := match here with
      | folder entries => entries
      | file _ => []
    folder (putChild name (put entry names ((child? entries name).getD (folder []))) entries)

/-- The longest name of a file, in bytes. -/
def longestName : Nat := 255

/-- Walk from a folder along the names of a path; `above` are the folders that were passed. -/
def walk : List Entry → Entry → List String → Except PathFault Entry
  | _, here, [] => .ok here
  | above, here, name :: names =>
    match here with
    | file _ => .error .notFolder
    | folder entries =>
      if name = "" ∨ name = "." then walk above here names
      else if name = ".." then
        match above with
        | [] => walk [] here names
        | parent :: rest => walk rest parent names
      else if longestName < name.utf8ByteSize then .error .nameTooLong
      else
        match child? entries name with
        | none => .error .missing
        | some entry => walk (here :: above) entry names

/-- The longest path, in bytes. -/
def longestPath : Nat := 4095

/-- The entry at a path. A path that starts at the root of the file system leads to nothing. -/
def find (root : Entry) (path : String) : Except PathFault Entry :=
  if path.toList.contains '\x00' then .error .hasNul
  else if path.isEmpty then .error .missing
  else if longestPath < path.utf8ByteSize then .error .nameTooLong
  else
    let names := path.splitOn "/"
    if path.startsWith "/" then walk [] (folder []) names else walk [] root names

/-- Read a path below a folder. -/
def files (root : Entry) : Files := fun path =>
  match root.find path with
  | .ok (file content) => .ok content
  | .ok (folder _) => .error PathFault.isFolder.message
  | .error fault => .error fault.message

end Entry

end Schemata
