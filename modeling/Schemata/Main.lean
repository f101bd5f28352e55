import Schemata.CommandLine.Run

/-!
# The program

Reads what the command line names, runs it, and writes what the run comes to.
-/

namespace Schemata.CommandLine

/-- Why the system refuses a file. -/
def reasonOf : IO.Error → String
  | .noFileOrDirectory _ _ _ => PathFault.missing.message
  | .inappropriateType _ code details =>
    if code = 20 then PathFault.notFolder.message
    else if code = 21 then PathFault.isFolder.message
    else details ++ " (os error " ++ toString code ++ ")"
  | other => toString other

/-- Read a file, or tell why it cannot be read. -/
def readFile (path : String) : IO (Except String ByteArray) := do
  try
    return .ok (← IO.FS.readBinFile path)
  catch error =>
    return .error (reasonOf error)

/-- Write the file of a report, which may fail. -/
def writeFile (report : Report) : IO Report := do
  match report.write? with
  | none => return report
  | some (path, text) =>
    try
      IO.FS.writeFile path text
      return report
    catch error =>
      return report.refused (reasonOf error)

/-- Print a report. -/
def print (report : Report) : IO Unit := do
  let stdout ← IO.getStdout
  let stderr ← IO.getStderr
  for warning in report.warnings do
    stderr.putStrLn (" WARN sqlt: " ++ warning)
  for line in report.errors do
    stderr.putStrLn line
  stdout.putStr report.stdout

end Schemata.CommandLine

open Schemata Schemata.CommandLine in
/-- Run the program on its arguments. -/
def main (words : List String) : IO UInt32 := do
  let mut found : List (String × Except String ByteArray) := []
  for path in filesRead words do
    found := (path, ← readFile path) :: found
  let known := found
  let files : Files := fun path => (known.lookup path).getD (.error PathFault.missing.message)
  let chunks ←
    if readsStdin files words then do
      let stdin ← IO.getStdin
      pure [← stdin.readBinToEnd]
    else pure []
  let report ← writeFile (run files { chunks } words)
  print report
  return report.exit.toUInt32
