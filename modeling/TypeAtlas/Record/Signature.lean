import TypeAtlas.Text.NameList

/-!
# Signatures

The signature of an attribute, a parameter or a result is a text that names types,
dotted or not, among brackets and other marks. `tokens` finds the dotted names in one
pass from left to right, each as long as it can be; `Signature.names` keeps those that
are not keywords.

A dot belongs to a name only between two identifiers, so the automaton that reads the
text waits after a dot until it has seen the next character.
-/

namespace TypeAtlas

/-- **A signature**: the rendered text of a type. -/
structure Signature where
  /-- The text. -/
  text : String
  deriving DecidableEq

namespace Signature

/-- Whether a character may start an identifier: an ASCII letter, `_` or `$`. -/
def isStart (c : Char) : Bool := c.isAlpha || c = '_' || c = '$'

/-- Whether a character may go on in an identifier: a start or an ASCII digit. -/
def isPart (c : Char) : Bool := isStart c || c.isDigit

/-- **Where a scan stands.** Names are kept with their last character first. -/
inductive ScanState where
  /-- Not in a name. -/
  | outside
  /-- In a name that ends with an identifier. -/
  | inside (name : List Char)
  /-- After a dot that follows a name. -/
  | afterDot (name : List Char)

namespace ScanState

/-- The state after a character that no name goes on with. -/
def restart (c : Char) : ScanState := if isStart c then inside [c] else outside

/-- The state after one character. -/
def step : ScanState → Char → ScanState
  | outside, c => restart c
  | inside name, c =>
    if isPart c then inside (c :: name)
    else if c = '.' then afterDot name
    else outside
  | afterDot name, c => if isStart c then inside (c :: '.' :: name) else outside

/-- The name that ends before a character, if one does. -/
def ended? : ScanState → Char → Option (List Char)
  | inside name, c => if isPart c || c = '.' then none else some name.reverse
  | afterDot name, c => if isStart c then none else some name.reverse
  | outside, _ => none

/-- The name that ends with the text. -/
def last? : ScanState → Option (List Char)
  | outside => none
  | inside name => some name.reverse
  | afterDot name => some name.reverse

end ScanState

/-- The dotted names from a state on, in the order of the text. -/
def scan (state : ScanState) : List Char → List (List Char)
  | [] => state.last?.toList
  | c :: rest => (state.ended? c).toList ++ scan (state.step c) rest

/-- **The dotted names of a text**, each as long as it can be. -/
def tokens (s : String) : List String := (scan .outside s.toList).map String.ofList

/-- The names that a signature holds without naming a type. -/
def keywords : List String :=
  ["void", "boolean", "byte", "char", "short", "int", "long", "float", "double",
   "extends", "super"]

/-- **The types named by a signature**, as a name list. -/
def names (s : Signature) : List String :=
  NameList.ofList ((tokens s.text).filter (· ∉ keywords))

@[simp] theorem mem_names {s : Signature} {name : String} :
    name ∈ s.names ↔ name ∈ tokens s.text ∧ name ∉ keywords := by
  simp [names]

end Signature

end TypeAtlas
