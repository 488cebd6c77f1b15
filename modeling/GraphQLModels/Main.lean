import GraphQLModels.CommandLine.Run

/-!
# The program

Looks up the paths that the arguments name, runs the command, prints what it prints and writes the
file it writes. No server can be reached from here.
-/

namespace GraphQLModels.CommandLine

/-- What a path leads to on the disk. -/
def readEntry (path : String) : IO Entry := do
  try
    return .file (← IO.FS.readFile path)
  catch
    | .inappropriateType .. => return .directory
    | _ => return .missing

/-- The place where the program was started, as far as the arguments name it. -/
def currentPlace (arguments : List String) : IO Place := do
  let directory := toString (← IO.currentDir)
  let known ← (namedPaths directory arguments).mapM fun path => return (path, ← readEntry path)
  return {
    directory
    entry := fun path => (findKey? path known).getD .missing
    replies := [.failure "No connection to a server can be made"] }

end GraphQLModels.CommandLine

open GraphQLModels CommandLine in
/-- Runs the program on the arguments of the command line. -/
def main (arguments : List String) : IO UInt32 := do
  let outcome := run .plain (← currentPlace arguments) arguments
  outcome.printed.forM IO.println
  outcome.warnings.forM fun warning => IO.eprintln warning.message
  outcome.errorLines.forM IO.eprintln
  match outcome.ending with
  | .informed text => IO.println text
  | _ => pure ()
  match outcome.written with
  | some (path, content) =>
    match Path.parent? path with
    | some parent => IO.FS.createDirAll parent
    | none => pure ()
    IO.FS.writeFile path content
  | none => pure ()
  return outcome.ending.exitCode.toUInt32
