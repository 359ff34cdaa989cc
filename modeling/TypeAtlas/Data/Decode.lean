import TypeAtlas.Data
import TypeAtlas.Number.Shortest
import TypeAtlas.Text.Concealed

/-!
# Decoding document values

A decoder takes a document value to a value of the domain or to the first reason why it
cannot. A record is decoded by its `Layout`, the list of its fields in the order of
their declaration, from either of two shapes:

* a map, whose entries are visited in the order of their keys, those that name no field
  being passed over, and which has to hold every required field;
* a list of the fields by position, which may end before fields that are not required.

A name out of a fixed vocabulary is decoded by `choice`, from the word or from a map
with the word as its only key.

The message for a value that is refused shows a text between double quotes. Inside, a quote
and a backslash follow a backslash, the common control characters have their letter, and a
concealed character is shown by its code in hexadecimal digits.
-/

namespace TypeAtlas

/-! ## Quoted text -/

namespace Text

/-- The code of a character: `\u` and the hexadecimal code point in braces. -/
def shownCode (c : Char) : List Char :=
  '\\' :: 'u' :: '\x7b' :: Nat.toDigits 16 c.toNat ++ ['\x7d']

/-- **How one character is shown** inside quoted text. -/
def shownChar (c : Char) : List Char :=
  if c = '\x00' then ['\\', '0']
  else if c = '\t' then ['\\', 't']
  else if c = '\r' then ['\\', 'r']
  else if c = '\n' then ['\\', 'n']
  else if c = '\\' then ['\\', '\\']
  else if c = '\x22' then ['\\', '\x22']
  else if isConcealed c then shownCode c
  else [c]

/-- **Quoted text**: the shown characters between double quotes. -/
def quoted (s : String) : String :=
  String.ofList ('\x22' :: s.toList.flatMap shownChar ++ ['\x22'])

end Text

/-! ## Messages -/

/-- **What a decoder asked for** and did not find. -/
inductive Wanted where
  /-- A text. -/
  | text
  /-- A truth value. -/
  | truth
  /-- A number. -/
  | number
  /-- A sequence. -/
  | list
  /-- A map of records. -/
  | map
  /-- A record, in either shape. -/
  | record (title : String)
  /-- A word, plain or as the key of a map. -/
  | word
  /-- No value. -/
  | nothing
  /-- A number from 0 to 255. -/
  | octet
  /-- Three values. -/
  | triple
  deriving DecidableEq

/-- How messages name what was asked for. -/
def Wanted.message : Wanted → String
  | text => "a string"
  | truth => "a boolean"
  | number => "f32"
  | list => "a sequence"
  | map => "a map"
  | record title => "struct " ++ title
  | word => "string or map"
  | nothing => "unit"
  | octet => "u8"
  | triple => "an array of length 3"

/-- How messages name a document value. -/
def Data.message : Data → String
  | null => "null"
  | bool value => "boolean `" ++ toString value ++ "`"
  | integer value => "integer `" ++ toString value ++ "`"
  | real value => "floating point `" ++ value.documentText ++ "`"
  | text value => "string " ++ Text.quoted value
  | list _ => "sequence"
  | map _ => "map"

/-- **Why a document value does not decode.** -/
inductive DecodeError where
  /-- The value is of another sort than the one asked for. -/
  | wrongSort (found : Data) (wanted : Wanted)
  /-- The number is out of the range asked for. -/
  | outOfRange (found : Int) (wanted : Wanted)
  /-- A word was given as a map that does not have exactly one key. -/
  | keysOfWord
  /-- The word is not in the vocabulary. -/
  | unknownWord (word : String) (known : List String)
  /-- A required field is absent from a map. -/
  | missingField (name : String)
  /-- The list of a record ends before the required field at a position. -/
  | endsBefore (position : Nat) (title : String) (fieldCount : Nat)
  /-- The list ends before the third value. -/
  | endsBeforeThird (length : Nat)
  /-- The list goes on after the last field. -/
  | goesOn (length : Nat)

/-- The wording of a decoding error. -/
def DecodeError.message : DecodeError → String
  | wrongSort found wanted =>
    "invalid type: " ++ found.message ++ ", expected " ++ wanted.message
  | outOfRange found wanted =>
    "invalid value: " ++ (Data.integer found).message ++ ", expected " ++ wanted.message
  | keysOfWord => "invalid value: map, expected map with a single key"
  | unknownWord word known =>
    "unknown variant `" ++ word ++ "`, expected one of "
      ++ ", ".intercalate (known.map fun name => "`" ++ name ++ "`")
  | missingField name => "missing field `" ++ name ++ "`"
  | endsBefore position title fieldCount =>
    "invalid length " ++ toString position ++ ", expected struct " ++ title ++ " with "
      ++ toString fieldCount ++ " elements"
  | endsBeforeThird length =>
    "invalid length " ++ toString length ++ ", expected " ++ Wanted.triple.message
  | goesOn length =>
    "invalid length " ++ toString length ++ ", expected fewer elements in array"

/-- The result of a decoder. -/
abbrev Decoded (α : Type) := Except DecodeError α

namespace Data

/-- A text. -/
def asText : Data → Decoded String
  | text value => .ok value
  | other => .error (.wrongSort other .text)

/-- A text that may be absent. -/
def asOptionalText : Data → Decoded (Option String)
  | null => .ok none
  | other => some <$> other.asText

/-- A truth value. -/
def asTruth : Data → Decoded Bool
  | bool value => .ok value
  | other => .error (.wrongSort other .truth)

/-- A 32-bit number, rounded from what is written. -/
def asBinary32 : Data → Decoded Binary32
  | integer value => .ok (Binary.ofInt value)
  | real value => .ok value.convert
  | other => .error (.wrongSort other .number)

/-- A number from 0 to 255. -/
def asOctet : Data → Decoded UInt8
  | integer value =>
    if 0 ≤ value ∧ value.toNat < UInt8.size then .ok (UInt8.ofNat value.toNat)
    else .error (.outOfRange value .octet)
  | other => .error (.wrongSort other .octet)

/-- A list of values that decode one by one; the first that does not is the error. -/
def asListOf {α : Type} (decode : Data → Decoded α) : Data → Decoded (List α)
  | list items => items.mapM decode
  | other => .error (.wrongSort other .list)

/-- A list of texts. -/
def asTexts : Data → Decoded (List String) := asListOf asText

/-- A map of values that decode one by one, in the order of the keys. -/
def asMapOf {α : Type} (decode : Data → Decoded α) : Data → Decoded (List (String × α))
  | map entries => entries.mapM fun entry => (entry.1, ·) <$> decode entry.2
  | other => .error (.wrongSort other .map)

/-- **A word out of a vocabulary**, plain or as the only key of a map that holds no
value under it. -/
def asWord {α : Type} (known : List α) (word : α → String) (d : Data) : Decoded α :=
  match d with
  | text name => find name
  | map [(name, payload)] =>
    match find name, payload with
    | .error e, _ => .error e
    | .ok a, null => .ok a
    | .ok _, other => .error (.wrongSort other .nothing)
  | map _ => .error .keysOfWord
  | other => .error (.wrongSort other .word)
where
  /-- The member of the vocabulary with a given word. -/
  find (name : String) : Decoded α :=
    match known.find? fun a => word a = name with
    | some a => .ok a
    | none => .error (.unknownWord name (known.map word))

end Data

/-- **A field of a record**: its name, whether a document has to give it, and how a
given value is put into the record. -/
structure Field (α : Type) where
  /-- The key of the field in a map. -/
  name : String
  /-- Whether the field has to be given. -/
  required : Bool
  /-- The record with the field taken from a document value. -/
  read : Data → α → Decoded α

/-- A field whose value decodes on its own. -/
def Field.of {α β : Type} (name : String) (required : Bool) (decode : Data → Decoded β)
    (put : β → α → α) : Field α :=
  ⟨name, required, fun d a => (put · a) <$> decode d⟩

/-- **The layout of a record.** -/
structure Layout (α : Type) where
  /-- The name of the record in messages. -/
  title : String
  /-- The record with every field at its default. Required fields have no default, so
  what stands there is always replaced. -/
  blank : α
  /-- The fields in the order of their declaration. -/
  fields : List (Field α)

namespace Layout

variable {α : Type}

/-- The record after the entries of a map, in their order. -/
def readEntries (l : Layout α) : List (String × Data) → α → Decoded α
  | [], a => .ok a
  | (key, d) :: rest, a =>
    match l.fields.find? fun field => field.name = key with
    | some field => do l.readEntries rest (← field.read d a)
    | none => l.readEntries rest a

/-- The first required field that a map does not give. -/
def missing? (l : Layout α) (entries : List (String × Data)) : Option String :=
  (l.fields.find? fun field =>
    field.required && !entries.any fun entry => entry.1 = field.name).map (·.name)

/-- The record after the values of a list, from a position on. -/
def readItems (l : Layout α) : Nat → List (Field α) → List Data → α → Decoded α
  | position, [], items, a =>
    if items = [] then .ok a else .error (.goesOn (position + items.length))
  | position, field :: fields, d :: items, a => do
    l.readItems (position + 1) fields items (← field.read d a)
  | position, field :: fields, [], a =>
    if field.required then .error (.endsBefore position l.title l.fields.length)
    else l.readItems (position + 1) fields [] a

/-- **Decoding a record** from a map of its fields or the list of them. -/
def decode (l : Layout α) : Data → Decoded α
  | .map entries => do
    let a ← l.readEntries entries l.blank
    match l.missing? entries with
    | some name => .error (.missingField name)
    | none => .ok a
  | .list items => l.readItems 0 l.fields items l.blank
  | other => .error (.wrongSort other (.record l.title))

end Layout

end TypeAtlas
