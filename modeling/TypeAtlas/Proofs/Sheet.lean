import Mathlib.Data.List.Forall2
import TypeAtlas.Proofs.LabelTable

/-!
# What a table says

A table is looked at row by row, once it has been read. The rows of a table in a cell stand where
that cell does. A row across all columns is a heading, and the rows below it, up to the next
heading, are its section. Of a cell, its text counts, and which of it is in bold. What is found in
this way is a `Sheet`.

Nothing of this knows how the table was written. Of the pieces that labels are put together from,
it is then said what they are read as: a row of cells is a line (`Markup.isLine_row`), and a
heading with lines below it is a section, in the table itself or in one of its own
(`Sheet.isBlock_section`, `Sheet.isBlock_ownSection`).
-/

namespace TypeAtlas

/-! ## Words, lines and sheets -/

/-- **What a cell says**: its characters, and those of them that are in bold. -/
structure Words where
  /-- The characters. -/
  chars : List Char
  /-- The characters in bold. -/
  boldChars : List Char
  deriving DecidableEq

namespace Words

/-- Words of which none is in bold. -/
def plain (text : String) : Words := ⟨text.toList, []⟩

/-- Words in bold. -/
def bold (text : String) : Words := ⟨text.toList, text.toList⟩

/-- Words and then others. -/
instance : Append Words := ⟨fun v w => ⟨v.chars ++ w.chars, v.boldChars ++ w.boldChars⟩⟩

theorem append_def (v w : Words) : v ++ w = ⟨v.chars ++ w.chars, v.boldChars ++ w.boldChars⟩ := rfl

@[simp] theorem append_plain_empty (w : Words) : w ++ plain "" = w := by
  simp [append_def, plain]

@[simp] theorem plain_empty_append (w : Words) : plain "" ++ w = w := by
  simp [append_def, plain]

theorem plain_append (s t : String) : plain (s ++ t) = plain s ++ plain t := by
  simp [append_def, plain]

theorem append_assoc (u v w : Words) : u ++ v ++ w = u ++ (v ++ w) := by
  simp [append_def]

end Words

/-- **A section of a sheet**: a heading, and the lines below it, cell by cell. -/
structure Section where
  /-- The text of the heading. -/
  title : String
  /-- The lines. -/
  lines : List (List Words)
  deriving DecidableEq

/-- **What a table says**: some lines, and then the sections. -/
structure Sheet where
  /-- The lines above the first heading. -/
  head : List (List Words)
  /-- The sections in order. -/
  sections : List Section
  deriving DecidableEq

namespace Markup.Node

mutual

/-- **The characters of a node that are in bold.** -/
def boldChars : Node → List Char
  | char _ => []
  | element name _ content => if name = "b" then charsAll content else boldCharsAll content

/-- The characters of several nodes that are in bold. -/
def boldCharsAll : List Node → List Char
  | [] => []
  | node :: rest => boldChars node ++ boldCharsAll rest

end

/-- The words of several nodes. -/
def words (nodes : List Node) : Words := ⟨charsAll nodes, boldCharsAll nodes⟩

/-- **The line of a row**: the words of its cells. -/
def line (row : Node) : List Words := row.content.map fun cell => words cell.content

/-- **A heading** is a row with one cell, across all columns. -/
def isHeading (row : Node) : Bool := row.content.map columns = [3]

/-- **A row** has nothing but cells. -/
structure IsRow (row : Node) : Prop where
  /-- It is a row. -/
  name_eq : row.name? = some "tr"
  /-- What is in it are cells. -/
  isCell : ∀ cell ∈ row.content, cell.name? = some "td"

/-- The rows in place of a row: those of the tables in its cells, if there are any. -/
def spread (row : Node) : List Node :=
  match row.rowTables with
  | [] => [row]
  | tables => tables.flatMap content

/-- **The rows of a table**, with those of the tables in its cells. -/
def rows (table : Node) : List Node := table.content.flatMap spread

end Markup.Node

open Markup Markup.Node

namespace Sheet

/-- **The sheet of some rows**, cut at the headings. -/
def ofRows : List Node → Sheet
  | [] => ⟨[], []⟩
  | row :: rest =>
    let below := ofRows rest
    if row.isHeading then
      ⟨[], ⟨String.ofList row.chars, below.head⟩ :: below.sections⟩
    else ⟨row.line :: below.head, below.sections⟩

/-- **What a table says.** -/
def ofTable (table : Node) : Sheet := ofRows table.rows

end Sheet

/-! ### The words of markup -/

namespace Markup

theorem nodesAll_append (ms ns : List Markup) :
    nodesAll (ms ++ ns) = nodesAll ms ++ nodesAll ns := by
  rw [nodesAll_eq_flatMap, nodesAll_eq_flatMap, nodesAll_eq_flatMap, List.flatMap_append]

namespace Node

theorem charsAll_append (xs ys : List Node) : charsAll (xs ++ ys) = charsAll xs ++ charsAll ys := by
  induction xs with
  | nil => rfl
  | cons x xs ih => rw [List.cons_append, charsAll, charsAll, ih, List.append_assoc]

theorem boldCharsAll_append (xs ys : List Node) :
    boldCharsAll (xs ++ ys) = boldCharsAll xs ++ boldCharsAll ys := by
  induction xs with
  | nil => rfl
  | cons x xs ih => rw [List.cons_append, boldCharsAll, boldCharsAll, ih, List.append_assoc]

theorem words_append (xs ys : List Node) : words (xs ++ ys) = words xs ++ words ys := by
  rw [words, charsAll_append, boldCharsAll_append]
  rfl

@[simp] theorem boldCharsAll_map_char (cs : List Char) : boldCharsAll (cs.map char) = [] := by
  induction cs with
  | nil => rfl
  | cons c cs ih => rw [List.map_cons, boldCharsAll, boldChars, ih, List.append_nil]

end Node

/-- **What pieces of markup say.** -/
def wordsAll (ms : List Markup) : Words := words (nodesAll ms)

@[simp] theorem wordsAll_nil : wordsAll [] = .plain "" := rfl

theorem wordsAll_append (ms ns : List Markup) :
    wordsAll (ms ++ ns) = wordsAll ms ++ wordsAll ns := by
  rw [wordsAll, nodesAll_append, words_append]
  rfl

@[simp] theorem wordsAll_text (content : String) (ms : List Markup) :
    wordsAll (text content :: ms) = .plain content ++ wordsAll ms := by
  rw [wordsAll, nodesAll, nodes, words_append, words, charsAll_map_char, boldCharsAll_map_char]
  rfl

@[simp] theorem wordsAll_space (ms : List Markup) :
    wordsAll (space :: ms) = .plain "\u00a0" ++ wordsAll ms := rfl

@[simp] theorem wordsAll_bold (content : String) (ms : List Markup) :
    wordsAll (bold [text content] :: ms) = .bold content ++ wordsAll ms := by
  have hbold : words (bold [text content]).nodes = .bold content := by
    simp [words, bold, nodes, nodesAll, chars, charsAll, boldChars, boldCharsAll, Words.bold]
  rw [wordsAll, nodesAll, words_append, hbold]
  rfl

@[simp] theorem wordsAll_sized (points : String) (content ms : List Markup) :
    wordsAll (sized points content :: ms) = wordsAll content ++ wordsAll ms := by
  have hsized : words (sized points content).nodes = wordsAll content := by
    simp [wordsAll, words, sized, nodes, chars, charsAll, boldChars, boldCharsAll]
  rw [wordsAll, nodesAll, words_append, hsized]
  rfl

end Markup

/-! ### Lines and blocks -/

namespace Markup

/-- Whether a piece is a table. -/
def isTable : Markup → Bool
  | element name _ _ => name = "table"
  | _ => false

@[simp] theorem isTable_text (content : String) : (text content).isTable = false := rfl

@[simp] theorem isTable_space : space.isTable = false := rfl

@[simp] theorem isTable_bold (content : List Markup) : (bold content).isTable = false := rfl

@[simp] theorem isTable_sized (points : String) (content : List Markup) :
    (sized points content).isTable = false := rfl

/-- **A piece is a line** if it is read as one row that is no heading and has no tables in it. -/
def IsLine (m : Markup) (words : List Words) : Prop :=
  ∃ row, m.nodes = [row] ∧ row.IsRow ∧ row.rowTables = [] ∧ row.isHeading = false
    ∧ row.line = words

/-- What is no table is read as nodes that are none. -/
theorem filter_table_eq_nil {ms : List Markup} (h : ∀ m ∈ ms, m.isTable = false) :
    (nodesAll ms).filter (fun node => node.name? = some "table") = [] := by
  rw [nodesAll_eq_flatMap, List.filter_flatMap, List.flatMap_eq_nil_iff]
  intro m hm
  have hnot := h m hm
  cases m with
  | text content => exact Label.filter_name_map_char _ _
  | space => rfl
  | element name attributes content => simpa [nodes, name?, isTable] using hnot

/-- **A row of cells is a line**, if no cell goes across others and none has a table in it. -/
theorem isLine_row (cells : List (List (String × String) × List Markup))
    (h : ∀ c ∈ cells, (∀ content, columns (.element "td" c.1 content) = 1)
      ∧ ∀ m ∈ c.2, m.isTable = false) :
    (row (cells.map fun c => cell c.1 c.2)).IsLine (cells.map fun c => wordsAll c.2) := by
  have hnodes : nodesAll (cells.map fun c => cell c.1 c.2)
      = cells.map fun c => .element "td" c.1 (nodesAll c.2) := by
    rw [nodesAll_eq_flatMap, List.flatMap_map]
    exact List.map_eq_flatMap.symm
  rw [IsLine, nodes_row, hnodes]
  refine ⟨_, rfl, ⟨rfl, fun node hnode => ?_⟩, ?_, decide_eq_false fun heading => ?_, ?_⟩
  · obtain ⟨c, -, rfl⟩ := List.mem_map.1 hnode
    rfl
  · rw [rowTables, content_element, List.flatMap_eq_nil_iff]
    intro node hnode
    obtain ⟨c, hc, rfl⟩ := List.mem_map.1 hnode
    exact filter_table_eq_nil (h c hc).2
  · have hthree : 3 ∈ (Node.element "tr" [] (cells.map fun c =>
        .element "td" c.1 (nodesAll c.2))).content.map columns := by
      rw [heading]
      exact List.mem_singleton_self 3
    obtain ⟨node, hnode, hcolumns⟩ := List.mem_map.1 hthree
    obtain ⟨c, hc, rfl⟩ := List.mem_map.1 hnode
    rw [(h c hc).1] at hcolumns
    cases hcolumns
  · rw [line, content_element, List.map_map]
    rfl

/-- A heading is read as a row that says its title. -/
theorem nodes_heading (title : String) (colour : Colour) :
    ∃ row, (Label.heading title colour).nodes = [row] ∧ row.IsRow ∧ row.rowTables = []
      ∧ row.isHeading = true ∧ String.ofList row.chars = title := by
  refine ⟨_, rfl, ⟨rfl, ?_⟩, rfl, ?_, ?_⟩
  · simp [nodesAll, name?]
  · simp [isHeading, nodesAll, Label.columns_colspan]
  · simp [nodesAll, nodes, sized, bold, chars, charsAll]

end Markup

namespace Sheet

/-- **Lines stay lines**, whatever comes below them. -/
theorem ofRows_lines {ms : List Markup} {lines : List (List Words)}
    (h : List.Forall₂ IsLine ms lines) (rest : List Node) :
    ofRows (nodesAll ms ++ rest)
      = ⟨lines ++ (ofRows rest).head, (ofRows rest).sections⟩ := by
  induction h with
  | nil => rfl
  | cons hm _ ih =>
    obtain ⟨row, hnodes, -, -, hheading, rfl⟩ := hm
    rw [nodesAll, hnodes, List.append_assoc, List.singleton_append, ofRows, ih, hheading]
    rfl

/-- **A heading and lines are a section**, if what comes below them begins with a heading. -/
theorem ofRows_section (title : String) (colour : Colour) {ms : List Markup}
    {lines : List (List Words)} (h : List.Forall₂ IsLine ms lines) {rest : List Node}
    (hrest : (ofRows rest).head = []) :
    ofRows (nodesAll (Label.heading title colour :: ms) ++ rest)
      = ⟨[], ⟨title, lines⟩ :: (ofRows rest).sections⟩ := by
  obtain ⟨row, hnodes, -, -, hheading, htitle⟩ := nodes_heading title colour
  rw [nodesAll, hnodes, List.append_assoc, List.singleton_append, ofRows, ofRows_lines h,
    hheading, htitle, hrest, List.append_nil]
  rfl

/-- **A block of sections** are pieces that are read as rows, and these as the sections, whatever
sections come below them. -/
structure IsBlock (ms : List Markup) (sections : List Section) : Prop where
  /-- What is read are rows. -/
  isRow : ∀ row ∈ (nodesAll ms).flatMap spread, row.IsRow
  /-- They are the rows of the sections. -/
  ofRows_append : ∀ rest, (ofRows rest).head = [] →
    ofRows ((nodesAll ms).flatMap spread ++ rest) = ⟨[], sections ++ (ofRows rest).sections⟩

theorem isBlock_nil : IsBlock [] [] where
  isRow := nofun
  ofRows_append rest hrest := by
    rw [nodesAll, List.flatMap_nil, List.nil_append, List.nil_append, ← hrest]

theorem IsBlock.append {ms ns : List Markup} {sections others : List Section}
    (hms : IsBlock ms sections) (hns : IsBlock ns others) :
    IsBlock (ms ++ ns) (sections ++ others) where
  isRow := by
    rw [nodesAll_append, List.flatMap_append, List.forall_mem_append]
    exact ⟨hms.isRow, hns.isRow⟩
  ofRows_append rest hrest := by
    have hmore := hns.ofRows_append rest hrest
    rw [nodesAll_append, List.flatMap_append, List.append_assoc,
      hms.ofRows_append _ (congrArg Sheet.head hmore), hmore, List.append_assoc]

/-- A block under a condition. -/
theorem IsBlock.ite {p : Prop} [Decidable p] {ms : List Markup} {sections : List Section}
    (h : IsBlock ms sections) : IsBlock (if p then ms else []) (if p then sections else []) := by
  split
  · exact h
  · exact isBlock_nil

/-- Lines are rows, and stand where they are. -/
theorem isRow_of_lines {ms : List Markup} {lines : List (List Words)}
    (h : List.Forall₂ IsLine ms lines) :
    (∀ row ∈ nodesAll ms, row.IsRow) ∧ (nodesAll ms).flatMap spread = nodesAll ms := by
  induction h with
  | nil => exact ⟨nofun, rfl⟩
  | cons hm _ ih =>
    obtain ⟨row, hnodes, hrow, htables, -⟩ := hm
    rw [nodesAll, hnodes, List.singleton_append, List.forall_mem_cons, List.flatMap_cons, ih.2,
      spread, htables]
    exact ⟨⟨hrow, ih.1⟩, rfl⟩

/-- A block that is read as a heading and the lines below it. -/
theorem isBlock_of_spread {title : String} {colour : Colour} {ms ns : List Markup}
    {lines : List (List Words)} (h : List.Forall₂ IsLine ms lines)
    (hspread : (nodesAll ns).flatMap spread = nodesAll (Label.heading title colour :: ms)) :
    IsBlock ns [⟨title, lines⟩] := by
  obtain ⟨row, hnodes, hrow, -⟩ := nodes_heading title colour
  constructor
  · rw [hspread, nodesAll, hnodes, List.singleton_append, List.forall_mem_cons]
    exact ⟨hrow, (isRow_of_lines h).1⟩
  · intro rest hrest
    rw [hspread]
    exact ofRows_section title colour h hrest

/-- **A heading and the lines below it are a block.** -/
theorem isBlock_section (title : String) (colour : Colour) {ms : List Markup}
    {lines : List (List Words)} (h : List.Forall₂ IsLine ms lines) :
    IsBlock (Label.heading title colour :: ms) [⟨title, lines⟩] := by
  obtain ⟨row, hnodes, -, htables, -⟩ := nodes_heading title colour
  have hstay : row.spread = [row] := by rw [spread, htables]
  refine @isBlock_of_spread title colour _ _ _ h ?_
  rw [nodesAll, hnodes, List.singleton_append, List.flatMap_cons, (isRow_of_lines h).2, hstay]
  rfl

/-- **A section with a table of its own is a block.** -/
theorem isBlock_ownSection (title : String) (colour : Colour) {ms : List Markup}
    {lines : List (List Words)} (h : List.Forall₂ IsLine ms lines) :
    IsBlock [Label.ownSection title colour ms] [⟨title, lines⟩] :=
  @isBlock_of_spread title colour _ _ _ h
    (by simp [Label.ownSection, nodesAll, nodes, spread, rowTables, name?])

end Sheet

end TypeAtlas
