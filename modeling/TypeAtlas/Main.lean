import TypeAtlas.Command.Run

/-!
# The command

The outer layer of the command line: it fetches the environment and the files that a
command reads, has the library work out the effect, and carries it out.
-/

namespace TypeAtlas

/-- The bytes of a file, if it can be read. -/
def fetch (path : String) : IO (String × Option ByteArray) := do
  try
    return (path, some (← IO.FS.readBinFile path))
  catch _ =>
    return (path, none)

/-- What is printed at the end of a command, and its exit code. -/
def report (outcome : Outcome) : IO UInt32 := do
  IO.print outcome.stdout
  if let some message := outcome.message then
    IO.eprintln ("Error: " ++ message)
  if let some cause := outcome.cause then
    IO.eprintln ("Caused by: " ++ cause)
  return outcome.exit.toUInt32

/-- An effect carried out. -/
def perform : Effect → IO UInt32
  | .print text => report { exit := 0, stdout := text }
  | .write path text => do
    try
      IO.FS.writeFile path text
      return 0
    catch _ =>
      report (.ofFailure (.unwritable path))

end TypeAtlas

open TypeAtlas in
/-- The command, given the words after its name. -/
def main (words : List String) : IO UInt32 := do
  match Invocation.parse words with
  | .error stop => report (.ofStop stop)
  | .ok i =>
    let environment ← IO.getEnv configVariable
    let files ← (i.reads environment).mapM fetch
    match i.effect environment fun path => (files.lookup path).join with
    | .error failure => report (.ofFailure failure)
    | .ok effect => perform effect
