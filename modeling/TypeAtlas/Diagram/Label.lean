import TypeAtlas.Diagram.Colour
import TypeAtlas.Diagram.Markup
import TypeAtlas.Settings

/-!
# Node labels

The label of a node is a table: the modifiers and kind of the type, its package, its
simple name, its tags, and, if the diagram shows them, its attributes and routines in
tables of their own. Tags, attributes and routines stand in the order of their names.

A list of parameters may be long, so it is cut into spans, and a row that has become
wider than `wrapWidth` ends after the span that made it so. The next spans go on in a
new row of the same table, under the parameters.
-/

namespace TypeAtlas.Label

open Markup

/-- Items in the order of their names; items of one name keep their order. -/
def byName {α : Type} (name : α → String) (items : List α) : List α :=
  items.mergeSort fun a b => name a ≤ name b

/-- The texts of a list that are not empty, between spaces. -/
def joinNonEmpty (parts : List String) : String :=
  " ".intercalate (parts.filter (· ≠ ""))

/-- The tags on a declaration, between spaces. -/
def tagsText (tags : List TagUse) : String := " ".intercalate (tags.map (·.display))

/-- The word for the kind of a type in its label. -/
def kindWord (r : TypeRecord) : String :=
  match r.kind with
  | .standard => if r.isEnum then "enum" else "class"
  | .interface => "interface"
  | .tag => "@interface"

/-- **A section heading**: a row across the table, behind it the colour of headings. -/
def heading (title : String) (colour : Colour) : Markup :=
  row [cell [("colspan", "3"), ("bgcolor", colour.text)]
    [sized "12" [bold [text title]]]]

/-- A section with a table of its own. -/
def ownSection (title : String) (colour : Colour) (rows : List Markup) : Markup :=
  row [cell [("cellpadding", "0")]
    [element "table" [("border", "0"), ("cellborder", "0")] (heading title colour :: rows)]]

/-! ## Parameters -/

/-- A row of parameters that is wider than this ends. -/
def wrapWidth : Nat := 40

/-- **A span of a parameter list** that no row break divides: text, a name in bold, and
text again. -/
structure Span where
  /-- The text before the name. -/
  lead : String
  /-- The name, if there is one. -/
  name : Option String := none
  /-- The text after the name. -/
  trail : String := ""

namespace Span

/-- The number of characters that are seen. -/
def width (s : Span) : Nat :=
  s.lead.length + (s.name.map String.length).getD 0 + s.trail.length

/-- The markup of a span. -/
def markup (s : Span) : List Markup :=
  text s.lead :: s.name.toList.map (fun name => bold [text name]) ++ [text s.trail]

/-- The span of a tag on a parameter. -/
def ofTag (t : TagUse) : Span where
  lead := t.display ++ " "

/-- The span of the type and name of a parameter, and of the comma after it. -/
def ofParameter (p : Parameter) (trail : String) : Span where
  lead := if p.name.isSome then p.signature.text ++ " " else p.signature.text
  name := p.name
  trail := trail

/-- **The spans of a parameter list**: for each parameter one per tag, then its type and
name. A comma follows every parameter but the last. -/
def ofParameters : List Parameter → List Span
  | [] => []
  | [p] => p.tags.map ofTag ++ [ofParameter p ""]
  | p :: rest => p.tags.map ofTag ++ ofParameter p ", " :: ofParameters rest

end Span

/-- A span before the first span of the first row. -/
def putFirst (s : Span) : List (List Span) → List (List Span)
  | [] => [[s]]
  | first :: rest => (s :: first) :: rest

/-- **The rows of a parameter list**, when the first row has a width already: a row ends
after a span that makes it wider than `wrapWidth`, unless the span is the last. -/
def wrap (width : Nat) : List Span → List (List Span)
  | [] => [[]]
  | [s] => [[s]]
  | s :: rest =>
    if wrapWidth < width + s.width then [s] :: wrap 0 rest
    else putFirst s (wrap (width + s.width) rest)

/-- The rows of the parameters of a routine. -/
def parameterRows (r : Routine) : List (List Span) := wrap 0 (Span.ofParameters r.parameters)

/-- The contents of the cells with parameters: the rows, with the parentheses at both
ends. -/
def closeRows : List (List Span) → List (List Markup)
  | [] => [[text ")"]]
  | [spans] => [spans.flatMap Span.markup ++ [text ")"]]
  | spans :: rest => spans.flatMap Span.markup :: closeRows rest

/-! ## Sections -/

/-- The row of a tag. -/
def tagRow (t : TagUse) : Markup := row [cell (aligned "center") [text t.display]]

/-- The row of an attribute: its tags, modifiers and type, then its name. -/
def attributeRow (showModifiers : Bool) (a : Attribute) : Markup :=
  let modifiers := if showModifiers then Modifier.display a.modifiers else ""
  row
    [cell (aligned "right")
      [text (joinNonEmpty [tagsText a.tags, modifiers, a.signature.text])],
     cell (aligned "left") [bold [text a.name]]]

/-- What stands before the result of a routine: its tags and modifiers, and a space if
there are any. -/
def routineLead (showModifiers : Bool) (r : Routine) : String :=
  let modifiers := if showModifiers then Modifier.display r.modifiers else ""
  let lead := joinNonEmpty [tagsText r.tags, modifiers]
  if lead = "" then "" else lead ++ " "

/-- **The rows of a routine**: its tags, modifiers and result, its name, and its
parameters, which may go on in further rows. A constructor has no result and the simple
name of its type. -/
def routineRows (typeName : String) (showModifiers : Bool) (r : Routine) : List Markup :=
  let result :=
    if r.isConstructor then bold [text "<constructor>"] else text r.result.text
  let name := if r.isConstructor then typeName else r.name
  let lead := cell (aligned "right") [text (routineLead showModifiers r), result]
  let title := cell (aligned "left") [bold [text name], space]
  match closeRows (parameterRows r) with
  | [] => []
  | first :: rest =>
    row [lead, title, cell (aligned "left") (text "(" :: first)]
      :: rest.map fun content => row [cell [] [], cell [] [], cell (aligned "left") content]

/-- The rows that say what the type is: modifiers and kind, package, simple name. -/
def titleRows (r : TypeRecord) : List Markup :=
  row [cell [] [text (joinNonEmpty [Modifier.display r.modifiers, kindWord r])]]
    :: r.package?.toList.map (fun package => row [cell [] [bold [text package]]])
    ++ [row [cell [] [sized "24" [bold [text r.simpleName]]]]]

/-- The section of tags, if there are any. -/
def tagSection (colour : Colour) (r : TypeRecord) : List Markup :=
  if r.tags = [] then []
  else heading "TAGS" colour :: (byName (·.name) r.tags).map tagRow

/-- The section of attributes, if they are shown and there are any. The heading says
that they are public, and their modifiers are given, unless the scan took in all. -/
def attributeSection (scan : ScanSettings) (diagram : DiagramSettings) (colour : Colour)
    (r : TypeRecord) : List Markup :=
  let showModifiers := !scan.ignoreAttributeVisibility
  if diagram.showAttributes ∧ r.attributes ≠ [] then
    [ownSection (if showModifiers then "PUBLIC ATTRIBUTES" else "ATTRIBUTES") colour
      ((byName (·.name) r.attributes).map (attributeRow showModifiers))]
  else []

/-- The section of routines, if they are shown and there are any but static
initializers, which have no rows. -/
def routineSection (scan : ScanSettings) (diagram : DiagramSettings) (colour : Colour)
    (r : TypeRecord) : List Markup :=
  let showModifiers := !scan.ignoreRoutineVisibility
  let routines := r.routines.filter fun routine => !routine.isStaticInitializer
  if diagram.showRoutines ∧ routines ≠ [] then
    [ownSection (if showModifiers then "PUBLIC ROUTINES" else "ROUTINES") colour
      ((byName (·.name) routines).flatMap (routineRows r.simpleName showModifiers))]
  else []

/-- **The table of a record.** -/
def table (scan : ScanSettings) (diagram : DiagramSettings) (colour : Colour)
    (r : TypeRecord) : Markup :=
  element "table" [("border", "0"), ("cellborder", "0"), ("cellspacing", "1")]
    (titleRows r ++ tagSection colour r ++ attributeSection scan diagram colour r
      ++ routineSection scan diagram colour r)

/-- **The label of a record**: its table between angle brackets. -/
def render (scan : ScanSettings) (diagram : DiagramSettings) (colour : Colour)
    (r : TypeRecord) : List Char :=
  '<' :: (table scan diagram colour r).render ++ ['>']

end TypeAtlas.Label
