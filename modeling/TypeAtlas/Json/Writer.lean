import TypeAtlas.Data
import TypeAtlas.Number.Shortest

/-!
# Writing JSON

`write` puts a document value on one line. `writeLines` writes a list of texts with one
text per line, as a reader of a terminal likes it. A text is written between quotes,
with an escape for a quote, a backslash and every control character, and as it is
otherwise.
-/

namespace TypeAtlas.Json

/-- Two hexadecimal digits of a number below 256. -/
def twoHexDigits (n : Nat) : List Char := [Nat.digitChar (n / 16), Nat.digitChar (n % 16)]

/-- **One character inside quotes.** -/
def writeChar (c : Char) : List Char :=
  if c = '\x22' then ['\\', '\x22']
  else if c = '\\' then ['\\', '\\']
  else if c = '\x08' then ['\\', 'b']
  else if c = '\t' then ['\\', 't']
  else if c = '\n' then ['\\', 'n']
  else if c = '\x0c' then ['\\', 'f']
  else if c = '\r' then ['\\', 'r']
  else if c.toNat < 0x20 then '\\' :: 'u' :: '0' :: '0' :: twoHexDigits c.toNat
  else [c]

/-- A text between quotes. -/
def writeText (s : String) : List Char :=
  '\x22' :: s.toList.flatMap writeChar ++ ['\x22']

mutual

/-- **A document value on one line**, without spaces. -/
def writeData : Data → List Char
  | .null => ['n', 'u', 'l', 'l']
  | .bool true => ['t', 'r', 'u', 'e']
  | .bool false => ['f', 'a', 'l', 's', 'e']
  | .integer value => (toString value).toList
  | .real value => value.documentText.toList
  | .text value => writeText value
  | .list items => '[' :: writeItems items
  | .map entries => '\x7b' :: writeEntries entries

/-- The items of a list and its end. -/
def writeItems : List Data → List Char
  | [] => [']']
  | [item] => writeData item ++ [']']
  | item :: rest => writeData item ++ ',' :: writeItems rest

/-- The entries of a map and its end. -/
def writeEntries : List (String × Data) → List Char
  | [] => ['\x7d']
  | [(key, value)] => writeText key ++ ':' :: writeData value ++ ['\x7d']
  | (key, value) :: rest => writeText key ++ ':' :: writeData value ++ ',' :: writeEntries rest

end

/-- The text of a document value. -/
def write (d : Data) : String := String.ofList (writeData d)

/-- The lines of the items of a list of texts, each indented, and its end. -/
def writeTextLines : List String → List Char
  | [] => ['\n', ']']
  | [item] => '\n' :: ' ' :: ' ' :: writeText item ++ ['\n', ']']
  | item :: rest => '\n' :: ' ' :: ' ' :: writeText item ++ ',' :: writeTextLines rest

/-- **A list of texts with one text per line.** The empty list is on one line. -/
def writeLines : List String → String
  | [] => "[]"
  | items => String.ofList ('[' :: writeTextLines items)

end TypeAtlas.Json
