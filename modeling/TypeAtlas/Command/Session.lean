import TypeAtlas.Command.Run

/-!
# A command step by step

`run` works out the effect of a command first and carries it out at the end. Here the same
command is told as it goes along: it looks for its settings, reads the records, builds the
graph and does its task, one step after the other, and each step finds the world as the step
before has left it. What a step prints is printed, and what it writes is written, whether or
not a later step fails.
-/

namespace TypeAtlas

/-- **The world of a command**: a disk, and what has been printed. -/
structure World where
  /-- The disk. -/
  disk : Disk
  /-- What has been printed. -/
  printed : String := ""

/-- **A step of a command**: in a world, it has a result or fails, and it leaves a world in
either case. -/
abbrev Step (α : Type) : Type := ExceptT Failure (StateM World) α

namespace Step

/-- Looks up the text of a file. -/
def readText (path : String) (failure : Failure) : Step String := do
  match Invocation.textOf? (← get).disk.read? path with
  | some text => return text
  | none => throw failure

/-- Prints a text. -/
def print (text : String) : Step Unit :=
  modify fun w => { w with printed := w.printed ++ text }

/-- Writes a text to a file. -/
def write (path text : String) : Step Unit := do
  let w ← get
  match w.disk.write? path text.toUTF8 with
  | some disk => set { w with disk }
  | none => throw (.unwritable path)

end Step

namespace Invocation

/-- Loads the settings from the configuration file, if there is one. -/
def loadSettings (i : Invocation) (environment : Option String) : Step FileSettings :=
  match i.configPath? environment with
  | none => pure {}
  | some path => do
    let text ← Step.readText path (.unreadableConfig path)
    match FileSettings.ofText? text with
    | some settings => return settings
    | none => throw (.invalidConfig path)

/-- Loads the graph from the file with the records. -/
def loadGraph (i : Invocation) (settings : FileSettings) : Step TypeGraph := do
  let text ← Step.readText i.records (.unreadableRecords i.records)
  match TypeGraph.ofJson (i.scanSettings settings) text with
  | .ok g => return g
  | .error reason => throw (.noGraph i.records reason)

/-- Draws the diagram, on the canvas if its measures are valid, and prints or writes it. -/
def draw (diagram : DiagramSettings) (output : Option String) (g : TypeGraph) : Step Unit :=
  match diagram.problem? with
  | some problem => throw (.badDiagram problem)
  | none =>
    let text := (g.defaultDiagram diagram).text
    match output with
    | some path => Step.write path text
    | none => Step.print (text ++ "\n")

/-- Does the task with the graph. -/
def doTask (task : Task) (settings : FileSettings) (g : TypeGraph) : Step Unit :=
  match task with
  | .list none json => Step.print (printNames g.allNames json)
  | .list (some kind) json => Step.print (printNames (g.namesOfKind kind) json)
  | .query question name json => Step.print (printNames (g.answer question name) json)
  | .origins name json => Step.print (printNames ((g.origins? name).getD []) json)
  | .dot width height noAttributes noRoutines output =>
    draw (diagramSettings settings width height noAttributes noRoutines) output g

/-- **The steps of a command.** -/
def steps (i : Invocation) (environment : Option String) : Step Unit := do
  let settings ← i.loadSettings environment
  let g ← i.loadGraph settings
  doTask i.task settings g

end Invocation

/-- **A session**: the steps of a command are taken on a disk, with nothing printed yet. What
has been printed when a step fails stays printed. -/
def session (words : List String) (environment : Option String) (disk : Disk) :
    Outcome × Disk :=
  match Invocation.parse words with
  | .error stop => (.ofStop stop, disk)
  | .ok i =>
    match (i.steps environment).run { disk } with
    | (.ok (), w) => ({ exit := 0, stdout := w.printed }, w.disk)
    | (.error failure, w) => ({ Outcome.ofFailure failure with stdout := w.printed }, w.disk)

end TypeAtlas
