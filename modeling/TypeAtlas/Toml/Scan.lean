/-!
# Scanning text

A scanner takes something off the front of a text and leaves the rest, or fails. The
notations of TOML are scanners put together from the few here. A scanner is repeated as
long as it gives something; since every round has to leave a shorter text, a repetition
ends by the length of the text.
-/

namespace TypeAtlas.Toml

/-- **A scanner** for values of a type. -/
abbrev Scan (α : Type) := StateT (List Char) Option α

namespace Scan

variable {α : Type}

/-- The next character, which is left in place. There is none at the end. -/
def peek? : Scan (Option Char) := fun cs => some (cs.head?, cs)

/-- The first character, taken off. -/
def next : Scan Char
  | [] => none
  | c :: rest => some (c, rest)

/-- A first character that passes a test, taken off. -/
def one (test : Char → Bool) : Scan Char
  | [] => none
  | c :: rest => if test c then some (c, rest) else none

/-- A given text, taken off. -/
def exactly (expected : List Char) : Scan Unit := fun cs =>
  if expected.isPrefixOf cs then some ((), cs.drop expected.length) else none

/-- Whether the text starts with a given one. -/
def startsWith (expected : List Char) : Scan Bool := fun cs =>
  some (expected.isPrefixOf cs, cs)

/-- The characters up to the first that fails a test. -/
def spanWhile (test : Char → Bool) : Scan (List Char) := fun cs =>
  some (cs.takeWhile test, cs.dropWhile test)

/-- **A scanner repeated** as long as it gives something. -/
def repeated (p : Scan (Option α)) (cs : List Char) : Option (List α × List Char) :=
  match p cs with
  | none => none
  | some (none, rest) => some ([], rest)
  | some (some a, rest) =>
    if rest.length < cs.length then
      (repeated p rest).map fun (found, rest) => (a :: found, rest)
    else none
termination_by cs.length

/-- What a scanner finds in a whole text. -/
def whole? (p : Scan α) (cs : List Char) : Option α :=
  match p cs with
  | some (a, []) => some a
  | _ => none

end Scan

/-! ## Lines and space -/

open Scan

/-- Whether a character is space within a line. -/
def isLineSpace (c : Char) : Bool := c = ' ' || c = '\t'

/-- Whether a character may stand in a comment or a text: no control character but the
tab. -/
def isPlain (c : Char) : Bool := c = '\t' || (0x20 ≤ c.toNat && c.toNat ≠ 0x7F)

/-- Space within a line. -/
def lineSpace : Scan Unit := do
  let _ ← spanWhile isLineSpace

/-- The end of a line, if it is here: a line feed, which a carriage return may
precede. -/
def newline? : Scan Bool
  | '\n' :: rest => some (true, rest)
  | '\r' :: '\n' :: rest => some (true, rest)
  | cs => some (false, cs)

/-- A comment, if one starts here. -/
def comment : Scan Unit := do
  if (← peek?) = some '#' then
    let _ ← spanWhile isPlain

/-- The end of a line or of the text. -/
def lineEnd : Scan Unit := do
  unless (← newline?) || (← peek?).isNone do failure

/-- The rest of a line after a statement: space and perhaps a comment. -/
def lineRest : Scan Unit := do
  lineSpace
  comment
  lineEnd

/-- Space, comments and line ends, in any number. -/
def freeSpace : Scan Unit := do
  let _ ← repeated do
    match ← peek? with
    | some '#' => do
      comment
      unless ← newline? do failure
      return some ()
    | some c =>
      if isLineSpace c then do
        lineSpace
        return some ()
      else return if ← newline? then some () else none
    | none => return none

end TypeAtlas.Toml
