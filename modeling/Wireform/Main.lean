import Wireform.Cli

/-!
# The program

Reads the files that the arguments name, runs the command and prints what it
leaves behind.
-/

namespace Wireform.Cli

/-- The text of a file, if there is one that can be read. -/
def readText (path : String) : IO (Option String) :=
  try
    return some (← IO.FS.readFile path)
  catch _ =>
    return none

/-- Write a file, and say whether that succeeded. -/
def writeText (path text : String) : IO Bool :=
  try
    IO.FS.writeFile path text
    return true
  catch _ =>
    return false

/-- The files that an invocation reads, with their texts. -/
def readFiles (args : List String) : IO (List (String × String)) := do
  match parse args with
  | none => return []
  | some i =>
      let texts ← (i.input :: i.config.toList).mapM fun path => do
        return (← readText path).map (path, ·)
      return texts.filterMap id

end Wireform.Cli

open Wireform.Cli in
/-- Run the command that the arguments name. -/
def main (args : List String) : IO UInt32 := do
  let files ← readFiles args
  let result := run args fun path => List.lookup path files
  let succeeded ←
    match result.written with
    | some (path, text) => writeText path text
    | none => pure true
  if succeeded then
    IO.print result.stdout
    IO.eprint result.stderr
    return UInt32.ofNat result.exit
  else
    IO.eprint s!"Error: {errorText .inaccessible}\n"
    return 1
