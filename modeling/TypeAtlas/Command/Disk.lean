/-!
# Files

A disk holds files under paths, seen from the directory in which a command runs. A path
is taken step by step: a single dot stays, two dots go up, and a name goes down into a
directory that has to exist. Directories exist as far as files are in them. The
directory of the command is the only one at the start, and there is nothing above it.
-/

namespace TypeAtlas

/-- **A disk.** -/
structure Disk where
  /-- The files: the names on the way to each, and its bytes. -/
  files : List (List String × ByteArray)

namespace Disk

/-- **The steps of a path**: the texts between its slashes. -/
def steps (path : String) : List String := (split path.toList).map String.ofList
where
  /-- The parts of a text between its slashes. -/
  split : List Char → List (List Char)
    | [] => [[]]
    | c :: rest =>
      if c = '/' then [] :: split rest
      else
        match split rest with
        | [] => [[c]]
        | part :: parts => (c :: part) :: parts

/-- The disk with some files in the directory of the command. -/
def ofFiles (files : List (String × ByteArray)) : Disk :=
  ⟨files.map fun file => (steps file.1, file.2)⟩

/-- Whether there is a directory at the end of a way. -/
def hasDirectory (d : Disk) (way : List String) : Bool :=
  way = [] || d.files.any fun file => way.isPrefixOf file.1 && way ≠ file.1

/-- The way to a file: from a directory, through the steps of a path. The last step has
to be a name. -/
def follow (d : Disk) : List String → List String → Option (List String)
  | _, [] => none
  | way, [name] =>
    if name = "" ∨ name = "." ∨ name = ".." then none else some (way ++ [name])
  | way, step :: rest =>
    if step = "" ∨ step = "." then d.follow way rest
    else if step = ".." then
      if way = [] then none else d.follow way.dropLast rest
    else if d.hasDirectory (way ++ [step]) then d.follow (way ++ [step]) rest
    else none

/-- **The way to the file that a path names.** A path that starts with a slash leads out
of the directory of the command. -/
def locate (d : Disk) (path : String) : Option (List String) :=
  if path.toList.head? = some '/' then none else d.follow [] (steps path)

/-- The bytes of the file that a path names. -/
def read? (d : Disk) (path : String) : Option ByteArray :=
  match d.locate path with
  | some way => (d.files.find? fun file => file.1 = way).map (·.2)
  | none => none

/-- **The disk after a file is written**, if it can be: its directory exists, and it is
no directory itself. -/
def write? (d : Disk) (path : String) (bytes : ByteArray) : Option Disk :=
  match d.locate path with
  | some way =>
    if d.hasDirectory way then none
    else some ⟨(way, bytes) :: d.files.filter fun file => file.1 ≠ way⟩
  | none => none

end Disk

end TypeAtlas
