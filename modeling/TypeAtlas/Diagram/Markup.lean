/-!
# Markup

The label of a node is markup: elements with attributes, and character data between
them. Character data is written with entities for the characters that mean something
in markup and for every character that is not printable ASCII, so that no text can be
taken for markup. Main statement: the text of a sequence of characters is the sequence
of their texts (`encode_append`).
-/

namespace TypeAtlas

namespace Entity

/-- Whether a character is printable ASCII. -/
def isPrintable (c : Char) : Bool := 0x20 ≤ c.toNat && c.toNat < 0x7F

/-- **One character of character data**: an entity by name or by number, or the
character itself. -/
def encodeChar (c : Char) : List Char :=
  if c = '&' then ['&', 'a', 'm', 'p', ';']
  else if c = '<' then ['&', 'l', 't', ';']
  else if c = '>' then ['&', 'g', 't', ';']
  else if c = '\x22' then ['&', 'q', 'u', 'o', 't', ';']
  else if c = '\x27' then ['&', '#', '3', '9', ';']
  else if isPrintable c then [c]
  else '&' :: '#' :: Nat.toDigits 10 c.toNat ++ [';']

/-- **Character data** for a text. -/
def encode (cs : List Char) : List Char := cs.flatMap encodeChar

@[simp] theorem encode_nil : encode [] = [] := rfl

@[simp] theorem encode_cons (c : Char) (cs : List Char) :
    encode (c :: cs) = encodeChar c ++ encode cs := rfl

@[simp] theorem encode_append (cs ds : List Char) :
    encode (cs ++ ds) = encode cs ++ encode ds := by
  simp [encode]

/-- A buffer followed by the character data for a text. -/
def appendTo (buffer text : String) : String :=
  buffer ++ String.ofList (encode text.toList)

end Entity

/-- **A piece of markup.** -/
inductive Markup where
  /-- Character data for a text. -/
  | text (content : String)
  /-- A space at which no line breaks. -/
  | space
  /-- An element with attributes around other pieces. -/
  | element (name : String) (attributes : List (String × String)) (content : List Markup)

namespace Markup

/-- An attribute: a space, its name, and its value between single quotes. -/
def attributeText (given : String × String) : List Char :=
  ' ' :: given.1.toList ++ '=' :: '\x27' :: given.2.toList ++ ['\x27']

/-- The mark that opens an element. -/
def openMark (name : String) (attributes : List (String × String)) : List Char :=
  '<' :: name.toList ++ attributes.flatMap attributeText ++ ['>']

/-- The mark that closes an element. -/
def closeMark (name : String) : List Char := '<' :: '/' :: name.toList ++ ['>']

mutual

/-- **The text of a piece of markup.** -/
def render : Markup → List Char
  | text content => Entity.encode content.toList
  | space => ['&', 'n', 'b', 's', 'p', ';']
  | element name attributes content =>
    openMark name attributes ++ renderAll content ++ closeMark name

/-- The texts of several pieces, one after the other. -/
def renderAll : List Markup → List Char
  | [] => []
  | piece :: rest => render piece ++ renderAll rest

end

@[simp] theorem renderAll_append (xs ys : List Markup) :
    renderAll (xs ++ ys) = renderAll xs ++ renderAll ys := by
  induction xs with
  | nil => simp [renderAll]
  | cons x xs ih => simp [renderAll, ih]

/-- A piece in bold. -/
def bold (content : List Markup) : Markup := element "b" [] content

/-- A piece with letters of a size. -/
def sized (points : String) (content : List Markup) : Markup :=
  element "font" [("point-size", points)] content

/-- A row of a table. -/
def row (cells : List Markup) : Markup := element "tr" [] cells

/-- A cell of a table. -/
def cell (attributes : List (String × String)) (content : List Markup) : Markup :=
  element "td" attributes content

/-- The attributes of a cell whose content stands at one side and at the top. -/
def aligned (side : String) : List (String × String) := [("align", side), ("valign", "top")]

end Markup

end TypeAtlas
