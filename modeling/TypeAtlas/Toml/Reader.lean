import TypeAtlas.Toml.Scalar
import TypeAtlas.Toml.Table
import TypeAtlas.Toml.Text

/-!
# Reading TOML

A document is a sequence of statements, one per line: headers and pairs. They are
scanned first and carried out afterwards, each on the tables that the ones before have
built.
-/

namespace TypeAtlas.Toml

open Scan

/-- How many lists and tables may be open around a value, and how many keys a dotted
key has at most. -/
def depthLimit : Nat := 79

/-! ## Keys and values -/

/-- Whether a character may stand in a key without quotes. -/
def isBareKeyChar (c : Char) : Bool := c.isAlphanum || c = '_' || c = '-'

/-- A key without quotes. -/
def bareKey : Scan String := do
  let first ← one isBareKeyChar
  return String.ofList (first :: (← spanWhile isBareKeyChar))

/-- One key of a dotted key, with space around it. -/
def simpleKey : Scan String := do
  lineSpace
  let key ←
    match ← peek? with
    | some '\x22' => quotedText
    | some '\x27' => literalText
    | _ => bareKey
  lineSpace
  return key

/-- **A dotted key**: the keys before its last one, and the last one. -/
def dottedKey : Scan (List String × String) := do
  let first ← simpleKey
  let rest ← repeated do
    if (← peek?) = some '.' then
      let _ ← next
      return some (← simpleKey)
    else return none
  let keys := first :: rest
  if depthLimit < keys.length then failure
  return (keys.dropLast, keys.getLast?.getD first)

/-- A dotted key, an equals sign, and what a scanner finds after them. -/
def pairOf (value : Scan Data) : Scan ((List String × String) × Data) := do
  let key ← dottedKey
  exactly ['=']
  lineSpace
  return (key, ← value)

/-- A list of values. The last one may have a comma after it. -/
def listOf (value : Scan Data) : Scan Data := do
  exactly ['[']
  let items ← repeated do
    freeSpace
    if (← peek?) = some ']' then return none
    let item ← value
    freeSpace
    match ← peek? with
    | some ',' => do
      let _ ← next
      return some item
    | some ']' => return some item
    | _ => failure
  exactly [']']
  return .list items

/-- A table on one line. Its pairs build it as those of a document do. -/
def inlineTableOf (value : Scan Data) : Scan Data := do
  exactly ['\x7b']
  lineSpace
  let pairs ←
    if (← peek?) = some '\x7d' then pure []
    else do
      let first ← pairOf value
      lineSpace
      let rest ← repeated do
        if (← peek?) = some ',' then
          let _ ← next
          let pair ← pairOf value
          lineSpace
          return some pair
        else return none
      pure (first :: rest)
  exactly ['\x7d']
  match pairs.foldlM (fun entries pair => Node.putPair pair.1.1 pair.1.2 pair.2 entries) [] with
  | some entries => return .map (Node.entriesToData entries)
  | none => failure

/-- A value, when lists and tables are found by the scanners given. -/
def valueOf (list inlineTable : Scan Data) : Scan Data := do
  match ← peek? with
  | some '\x22' => .text <$> textValue
  | some '\x27' => .text <$> textValue
  | some 't' => do
    exactly ['t', 'r', 'u', 'e']
    return .bool true
  | some 'f' => do
    exactly ['f', 'a', 'l', 's', 'e']
    return .bool false
  | some '[' => list
  | some '\x7b' => inlineTable
  | _ => moment <|> numberValue

/-- **A value**, around which so many lists and tables may still be opened. -/
def valueWithin : Nat → Scan Data
  | 0 => valueOf failure failure
  | depth + 1 => valueOf (listOf (valueWithin depth)) (inlineTableOf (valueWithin depth))

/-! ## Statements -/

/-- **A statement.** -/
inductive Statement where
  /-- A header that opens a table. -/
  | header (path : List String) (key : String)
  /-- A header that opens a further table of a list. -/
  | listHeader (path : List String) (key : String)
  /-- A value under a key of the open table. -/
  | pair (path : List String) (key : String) (value : Data)

/-- A header, single or double. -/
def header : Scan Statement := do
  exactly ['[']
  if (← peek?) = some '[' then
    let _ ← next
    let (path, key) ← dottedKey
    exactly [']', ']']
    lineRest
    return .listHeader path key
  else
    let (path, key) ← dottedKey
    exactly [']']
    lineRest
    return .header path key

/-- A pair on a line of its own. -/
def pairLine : Scan Statement := do
  let ((path, key), value) ← pairOf (valueWithin depthLimit)
  lineRest
  return .pair path key value

/-- The statements of a document; a line without one gives none. -/
def statements : Scan (List Statement) := do
  if (← peek?) = some '\uFEFF' then
    let _ ← next
  let lines ← repeated do
    lineSpace
    match ← peek? with
    | none => return none
    | some '[' => return some (some (← header))
    | some '#' =>
      lineRest
      return some none
    | some _ =>
      if ← newline? then return some none
      else return some (some (← pairLine))
  return lines.filterMap id

/-- **The tables of a document so far**, and which of them is open. -/
structure Builder where
  /-- The entries of the document. -/
  entries : List (String × Node) := []
  /-- The path of the open table; the document itself has none. -/
  openPath : List String := []

/-- **A statement carried out**, if the tables built so far allow it. -/
def Builder.apply (b : Builder) : Statement → Option Builder
  | .header path key =>
    (Node.openTable path key b.entries).map fun entries => ⟨entries, path ++ [key]⟩
  | .listHeader path key =>
    (Node.openListed path key b.entries).map fun entries => ⟨entries, path ++ [key]⟩
  | .pair path key value =>
    (Node.descend false (fun _ inner => Node.putPair path key value inner) b.openPath false
      b.entries).map fun entries => { b with entries }

/-- **Reading a document**: the map of its tables, if the text is TOML. -/
def read? (text : String) : Option Data := do
  let found ← whole? statements text.toList
  let b ← found.foldlM Builder.apply {}
  return .map (Node.entriesToData b.entries)

end TypeAtlas.Toml
