import TypeAtlas.Command.Disk
import TypeAtlas.Command.Invocation
import TypeAtlas.Diagram.Document
import TypeAtlas.Graph.Build
import TypeAtlas.Json.Writer
import TypeAtlas.Toml.Reader

/-!
# Running a command

A command reads a configuration file, if there is one, and the file with the records,
and builds the graph. Then it prints an answer or writes a diagram. `Invocation.effect`
works out the one effect that a command has, or the first thing that is wrong; it
touches no file itself. `run` carries the effect out on a disk. So a command that fails
has printed nothing and changed no file.
-/

namespace TypeAtlas

/-- **The settings in a configuration file.** -/
structure FileSettings where
  /-- The settings of the scan. -/
  scan : ScanSettings := {}
  /-- The settings of the diagram. -/
  diagram : DiagramSettings := {}
  deriving DecidableEq

namespace FileSettings

/-- A list cut to the number of fields of a layout. A configuration file may go on after
the last field of a table that is given as a list. -/
def cutTo {α : Type} (l : Layout α) : Data → Data
  | .list items => .list (items.take l.fields.length)
  | other => other

/-- The layout of a configuration file. -/
def layout : Layout FileSettings where
  title := "FileConfig"
  blank := {}
  fields :=
    [.of "scan" false (fun d => ScanSettings.layout.decode (cutTo ScanSettings.layout d))
      fun scan s => { s with scan },
     .of "diagram" false
      (fun d => DiagramSettings.layout.decode (cutTo DiagramSettings.layout d))
      fun diagram s => { s with diagram }]

/-- **The settings of a configuration text**, if it is TOML and its tables decode. -/
def ofText? (text : String) : Option FileSettings :=
  match Toml.read? text with
  | none => none
  | some document => (layout.decode document).toOption

end FileSettings

/-- **Why a command fails.** -/
inductive Failure where
  /-- The configuration file is absent or is not text. -/
  | unreadableConfig (path : String)
  /-- The configuration file does not decode. -/
  | invalidConfig (path : String)
  /-- The file with the records is absent or is not text. -/
  | unreadableRecords (path : String)
  /-- The records make no graph. -/
  | noGraph (path : String) (reason : BuildError)
  /-- The settings of the diagram are not valid. -/
  | badDiagram (problem : String)
  /-- The diagram cannot be written. -/
  | unwritable (path : String)

namespace Failure

/-- The message of a failure. -/
def message : Failure → String
  | unreadableConfig path => "Failed to read config " ++ path
  | invalidConfig path => "Invalid config " ++ path
  | unreadableRecords path => "Failed to read records " ++ path
  | noGraph path _ => "Failed to build type graph from " ++ path
  | badDiagram _ => "Invalid diagram options"
  | unwritable path => "Failed to write " ++ path

/-- What lies behind a failure, where this library has words for it. -/
def cause? : Failure → Option String
  | noGraph _ .notJson => none
  | noGraph _ (.undecodable _) => none
  | noGraph _ reason => some reason.message
  | badDiagram problem => some problem
  | _ => none

end Failure

/-- **What a command does** in the end. -/
inductive Effect where
  /-- It prints a text. -/
  | print (text : String)
  /-- It writes a text to a file. -/
  | write (path text : String)

/-- **How names are printed**: as a JSON document, or one per line. -/
def printNames (names : List String) (json : Bool) : String :=
  if json then Json.writeLines names ++ "\n"
  else if names = [] then ""
  else "\n".intercalate names ++ "\n"

/-- The name of the environment variable with the path of a configuration file. -/
def configVariable : String := "TYPESCAN_CONFIG"

namespace Invocation

/-- The path of the configuration file: the one named in the command, or else the one in
the environment. -/
def configPath? (i : Invocation) (environment : Option String) : Option String :=
  i.config.or environment

/-- The paths of the files that a command reads. -/
def reads (i : Invocation) (environment : Option String) : List String :=
  (i.configPath? environment).toList ++ [i.records]

/-- The text of a file. -/
def textOf? (read : String → Option ByteArray) (path : String) : Option String :=
  (read path).bind String.fromUTF8?

/-- The settings that the configuration file gives, or the defaults without one. -/
def fileSettings (i : Invocation) (environment : Option String)
    (read : String → Option ByteArray) : Except Failure FileSettings :=
  match i.configPath? environment with
  | none => .ok {}
  | some path =>
    match textOf? read path with
    | none => .error (.unreadableConfig path)
    | some text =>
      match FileSettings.ofText? text with
      | none => .error (.invalidConfig path)
      | some settings => .ok settings

/-- The settings of the scan, as the command changes them. -/
def scanSettings (i : Invocation) (settings : FileSettings) : ScanSettings :=
  if i.includeExternal then { settings.scan with enableExternalTypes := true }
  else settings.scan

/-- The settings of the diagram, as a command for a diagram changes them. -/
def diagramSettings (settings : FileSettings) (width height : Option Binary32)
    (noAttributes noRoutines : Bool) : DiagramSettings where
  width := width.getD settings.diagram.width
  height := height.getD settings.diagram.height
  showAttributes := settings.diagram.showAttributes && !noAttributes
  showRoutines := settings.diagram.showRoutines && !noRoutines

/-- What a task does with the graph. -/
def taskEffect (task : Task) (settings : FileSettings) (g : TypeGraph) :
    Except Failure Effect :=
  match task with
  | .list none json => .ok (.print (printNames g.allNames json))
  | .list (some kind) json => .ok (.print (printNames (g.namesOfKind kind) json))
  | .query question name json => .ok (.print (printNames (g.answer question name) json))
  | .origins name json => .ok (.print (printNames ((g.origins? name).getD []) json))
  | .dot width height noAttributes noRoutines output =>
    let diagram := diagramSettings settings width height noAttributes noRoutines
    match diagram.problem? with
    | some problem => .error (.badDiagram problem)
    | none =>
      let text := (g.defaultDiagram diagram).text
      match output with
      | some path => .ok (.write path text)
      | none => .ok (.print (text ++ "\n"))

/-- **The effect of a command**, given the environment and what its files hold. -/
def effect (i : Invocation) (environment : Option String)
    (read : String → Option ByteArray) : Except Failure Effect := do
  let settings ← i.fileSettings environment read
  match textOf? read i.records with
  | none => .error (.unreadableRecords i.records)
  | some text =>
    match TypeGraph.ofJson (i.scanSettings settings) text with
    | .error reason => .error (.noGraph i.records reason)
    | .ok g => taskEffect i.task settings g

end Invocation

/-- **How a command ends.** -/
structure Outcome where
  /-- The exit code: 0 for success, 1 for a failure, 2 for words that make up no
  command. -/
  exit : Nat
  /-- What is printed. -/
  stdout : String := ""
  /-- The message of a failure. -/
  message : Option String := none
  /-- What lies behind the failure. -/
  cause : Option String := none
  deriving DecidableEq

namespace Outcome

/-- The end of a command that fails. -/
def ofFailure (failure : Failure) : Outcome :=
  { exit := 1, message := some failure.message, cause := failure.cause? }

/-- The end of a command line without an invocation. Help has no text here. -/
def ofStop : Stop → Outcome
  | .usage => { exit := 2 }
  | .help => { exit := 0 }
  | .version => { exit := 0, stdout := "typescan 0.1.1\n" }

end Outcome

/-- **Running a command** on a disk: how it ends, and the disk afterwards. -/
def run (words : List String) (environment : Option String) (disk : Disk) :
    Outcome × Disk :=
  match Invocation.parse words with
  | .error stop => (.ofStop stop, disk)
  | .ok i =>
    match i.effect environment disk.read? with
    | .error failure => (.ofFailure failure, disk)
    | .ok (.print text) => ({ exit := 0, stdout := text }, disk)
    | .ok (.write path text) =>
      match disk.write? path text.toUTF8 with
      | some disk => ({ exit := 0 }, disk)
      | none => (.ofFailure (.unwritable path), disk)

end TypeAtlas
