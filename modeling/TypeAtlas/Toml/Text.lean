import TypeAtlas.Json.Token
import TypeAtlas.Toml.Scan

/-!
# Texts in TOML

A text is written between quotes, with escapes, or between apostrophes, as it is. Three
marks in place of one allow line ends; a line end right after the opening marks does
not count, and up to two marks may stand directly before the closing ones.
-/

namespace TypeAtlas.Toml

open Scan

/-- The character with a code of some hexadecimal digits. -/
def codeEscape (digits : Nat) : Scan Char := do
  let values ← (List.replicate digits ()).mapM fun _ => do
    match Json.hexValue? (← next) with
    | some value => return value
    | none => failure
  let code := values.foldl (fun n value => n * 16 + value) 0
  if h : code.isValidChar then return Char.ofNatAux code h else failure

/-- The character that stands after a backslash stands for. -/
def escape : Scan Char := do
  match ← next with
  | 'u' => codeEscape 4
  | 'U' => codeEscape 8
  | '/' => failure
  | c =>
    match Json.shortEscape? c with
    | some out => return out
    | none => failure

/-- A text between quotes on one line. -/
def quotedText : Scan String := do
  exactly ['\x22']
  let content ← repeated do
    match ← peek? with
    | some '\x22' => return none
    | some '\\' => do
      let _ ← next
      return some (← escape)
    | _ => return some (← one isPlain)
  exactly ['\x22']
  return String.ofList content

/-- A text between apostrophes on one line. -/
def literalText : Scan String := do
  exactly ['\x27']
  let content ← spanWhile fun c => isPlain c && c ≠ '\x27'
  exactly ['\x27']
  return String.ofList content

/-- A line end and all space and line ends after it, if a backslash stands before. -/
def joinLines : Scan Bool := do
  let joined ← optional do
    lineSpace
    unless ← newline? do failure
    repeated do
      if ← newline? then return some ()
      else
        match ← optional (one isLineSpace) with
        | some _ => return some ()
        | none => return none
  return joined.isSome

/-- **A text over several lines** between three marks. -/
def linesBetween (mark : Char) (escapes : Bool) : Scan String := do
  exactly [mark, mark, mark]
  let _ ← newline?
  let content ← repeated do
    match ← peek? with
    | none => failure
    | some c =>
      if c = mark then
        if ← startsWith [mark, mark, mark] then return none
        else return some (← spanWhile (· = mark))
      else if c = '\\' && escapes then
        let _ ← next
        if ← joinLines then return some []
        else return some [← escape]
      else if ← newline? then return some ['\n']
      else return some [← one isPlain]
  let marks ← spanWhile (· = mark)
  if 5 < marks.length then failure
  return String.ofList (content.flatten ++ marks.drop 3)

/-- A text in any of its notations. -/
def textValue : Scan String := do
  if ← startsWith ['\x22', '\x22', '\x22'] then linesBetween '\x22' true
  else if ← startsWith ['\x27', '\x27', '\x27'] then linesBetween '\x27' false
  else if (← peek?) = some '\x22' then quotedText
  else literalText

end TypeAtlas.Toml
