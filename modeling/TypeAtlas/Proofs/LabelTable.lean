import Mathlib.Algebra.GroupWithZero.Nat
import TypeAtlas.Proofs.MarkupReading
import TypeAtlas.Proofs.ParameterList

/-!
# The table of a label

A label is put together from pieces of text, and it has to come out as one table whatever the
names, tags and signatures of the type are. That it does is said of the text alone
(`Label.IsLabel`): it is printable, its angle brackets close where it ends and not before, each
`&` begins an entity, and a reader of markup, for whom an element is closed by the mark of its
own name and before those around it, reads it as one element.

What has been read is then looked at as a table. The routines have a table of their own in it,
with a heading, a row for each routine and further rows where a list of parameters is long.
Each of these spans three columns (`Label.exists_isLabel`).
-/

namespace TypeAtlas

/-! ## How deep a reader is -/

namespace Lexeme

/-- **How many angle brackets are open** after a text. -/
def depth (cs : List Char) : Int := cs.count '<' - cs.count '>'

theorem depth_append (cs ds : List Char) : depth (cs ++ ds) = depth cs + depth ds := by
  simp only [depth, List.count_append, Int.natCast_add]
  omega

theorem depth_cons_open (cs : List Char) : depth ('<' :: cs) = depth cs + 1 := by
  rw [depth, depth, List.count_cons_self, List.count_cons_of_ne (by decide), Int.natCast_add]
  omega

theorem depth_cons_close (cs : List Char) : depth ('>' :: cs) = depth cs - 1 := by
  rw [depth, depth, List.count_cons_self, List.count_cons_of_ne (by decide), Int.natCast_add]
  omega

theorem depth_cons_plain {c : Char} (hopen : c ≠ '<') (hclose : c ≠ '>') (cs : List Char) :
    depth (c :: cs) = depth cs := by
  rw [depth, depth, List.count_cons_of_ne hopen, List.count_cons_of_ne hclose]

variable {cs : List Char}

/-- **All that is opened in a balanced text is closed in it.** -/
theorem Balanced.depth_eq_zero (h : Balanced cs) : depth cs = 0 := by
  induction h with
  | nil => rfl
  | plain hopen hclose _ ih => rw [depth_cons_plain hopen hclose, ih]
  | nest _ _ ihcs ihds =>
    rw [List.cons_append, depth_cons_open, depth_append, depth_cons_close, ihcs, ihds]
    decide

/-- **Nothing is closed that was not open** in a balanced text. -/
theorem Balanced.depth_nonneg (h : Balanced cs) {front back : List Char}
    (hcs : cs = front ++ back) : 0 ≤ depth front := by
  induction h generalizing front back with
  | nil =>
    rw [(List.append_eq_nil_iff.1 hcs.symm).1]
    decide
  | plain hopen hclose _ ih =>
    cases front with
    | nil => decide
    | cons d front =>
      obtain ⟨rfl, hrest⟩ := List.cons.inj hcs
      rw [depth_cons_plain hopen hclose]
      exact ih hrest
  | @nest cs ds hinner _ ihcs ihds =>
    cases front with
    | nil => decide
    | cons d front =>
      obtain ⟨rfl, hrest⟩ := List.cons.inj hcs
      rw [depth_cons_open]
      -- the front may end inside the brackets, or after they are closed
      obtain ⟨more, rfl, hmore⟩ | ⟨more, hmore, -⟩ := List.append_eq_append_iff.1 hrest
      · cases more with
        | nil =>
          rw [List.append_nil, hinner.depth_eq_zero]
          decide
        | cons e more =>
          obtain ⟨rfl, hds⟩ := List.cons.inj hmore
          have hnonneg := ihds hds
          rw [depth_append, depth_cons_close, hinner.depth_eq_zero]
          omega
      · have hnonneg := ihcs hmore
        omega

/-- **Between its angle brackets, a balanced text does not close the first one.** -/
theorem Balanced.depth_pos (h : Balanced cs) {front back : List Char}
    (hcs : '<' :: cs ++ ['>'] = front ++ back) (hfront : front ≠ []) (hback : back ≠ []) :
    0 < depth front := by
  obtain ⟨d, front, rfl⟩ := List.exists_cons_of_ne_nil hfront
  obtain ⟨rfl, hrest⟩ := List.cons.inj hcs
  -- the last bracket is not in the front
  have hmore : cs = front ++ back.dropLast := by
    have hdropLast := congrArg List.dropLast hrest
    rwa [List.append_eq, List.append_eq, List.dropLast_concat,
      List.dropLast_append_of_ne_nil hback] at hdropLast
  have hnonneg := h.depth_nonneg hmore
  rw [depth_cons_open]
  omega

end Lexeme

/-! ## Rows and columns -/

namespace Markup

namespace Node

/-- The name of an element. -/
def name? : Node → Option String
  | char _ => none
  | element name _ _ => some name

/-- What is in an element. -/
def content : Node → List Node
  | char _ => []
  | element _ _ content => content

/-- The value of an attribute of an element. -/
def attribute? (key : String) : Node → Option String
  | char _ => none
  | element _ attributes _ => attributes.lookup key

mutual

/-- **The characters of a node**, without marks. -/
def chars : Node → List Char
  | char c => [c]
  | element _ _ content => charsAll content

/-- The characters of several nodes. -/
def charsAll : List Node → List Char
  | [] => []
  | node :: rest => chars node ++ charsAll rest

end

/-- **How many columns a cell spans**: one, unless it says otherwise. -/
def columns (cell : Node) : Nat :=
  ((cell.attribute? "colspan").bind fun value => Entity.decimal? value.toList).getD 1

/-- **A row that spans so many columns**: it has nothing but cells, and these span as many
together. -/
structure SpansColumns (row : Node) (count : Nat) : Prop where
  /-- It is a row. -/
  isRow : row.name? = some "tr"
  /-- What is in it are cells. -/
  isCell : ∀ cell ∈ row.content, cell.name? = some "td"
  /-- The columns of the cells. -/
  columns_sum : (row.content.map columns).sum = count

/-- The tables in the cells of a row. -/
def rowTables (row : Node) : List Node :=
  row.content.flatMap fun cell => cell.content.filter fun node => node.name? = some "table"

/-- **The tables in the cells of a table.** -/
def tables (table : Node) : List Node := table.content.flatMap rowTables

/-- **The title of a table**: what its first row says. -/
def title (table : Node) : String := String.ofList (charsAll (table.content.take 1))

@[simp] theorem content_element (name : String) (attributes : List (String × String))
    (content : List Node) : (element name attributes content).content = content := rfl

@[simp] theorem charsAll_map_char (cs : List Char) : charsAll (cs.map char) = cs := by
  induction cs with
  | nil => rfl
  | cons c cs ih => rw [List.map_cons, charsAll, chars, ih, List.singleton_append]

end Node

/-! ### The nodes of rows and cells -/

theorem nodesAll_eq_flatMap (ms : List Markup) : nodesAll ms = ms.flatMap nodes := by
  induction ms with
  | nil => rfl
  | cons m ms ih => rw [nodesAll, ih, List.flatMap_cons]

@[simp] theorem nodes_row (cells : List Markup) :
    (row cells).nodes = [.element "tr" [] (nodesAll cells)] := rfl

@[simp] theorem nodes_cell (attributes : List (String × String)) (content : List Markup) :
    (cell attributes content).nodes = [.element "td" attributes (nodesAll content)] := rfl

/-- Pieces that are read as one node each. -/
theorem nodesAll_of_forall {P : Node → Prop} {ms : List Markup}
    (h : ∀ m ∈ ms, ∃ node, m.nodes = [node] ∧ P node) :
    (nodesAll ms).length = ms.length ∧ ∀ node ∈ nodesAll ms, P node := by
  induction ms with
  | nil => exact ⟨rfl, nofun⟩
  | cons m ms ih =>
    obtain ⟨⟨node, hm, hnode⟩, hms⟩ := List.forall_mem_cons.1 h
    obtain ⟨hlength, hforall⟩ := ih hms
    rw [nodesAll, hm, List.singleton_append]
    exact ⟨by rw [List.length_cons, List.length_cons, hlength],
      List.forall_mem_cons.2 ⟨hnode, hforall⟩⟩

end Markup

namespace Label

open Markup Markup.Node

/-! ## The rows of routines -/

/-- **A routine has as many rows as its list of parameters.** -/
theorem length_routineRows (typeName : String) (showModifiers : Bool) (r : Routine) :
    (routineRows typeName showModifiers r).length = (parameterRows r).length := by
  have hlength := length_closeRows (wrap_ne_nil 0 (Span.ofParameters r.parameters))
  rw [parameterRows, ← hlength]
  unfold routineRows parameterRows
  cases closeRows (wrap 0 (Span.ofParameters r.parameters)) <;> simp

theorem columns_aligned (side : String) (content : List Node) :
    columns (.element "td" (aligned side) content) = 1 := rfl

theorem columns_cell (content : List Node) : columns (.element "td" [] content) = 1 := rfl

theorem columns_colspan (colour : Colour) (content : List Node) :
    columns (.element "td" [("colspan", "3"), ("bgcolor", colour.text)] content) = 3 := rfl

/-- **A section heading goes across three columns.** -/
theorem exists_row_heading (title : String) (colour : Colour) :
    ∃ node, (heading title colour).nodes = [node] ∧ node.SpansColumns 3 := by
  refine ⟨_, rfl, rfl, ?_, ?_⟩
  · simp [nodesAll, name?]
  · simp [nodesAll, columns_colspan]

/-- A row with three cells, none of which says how many columns it spans. -/
theorem exists_row {first second third : Node} {cells : List Markup}
    (hcells : nodesAll cells = [first, second, third])
    (hname : ∀ cell ∈ [first, second, third], cell.name? = some "td")
    (hcolumns : ∀ cell ∈ [first, second, third], columns cell = 1) :
    ∃ node, (row cells).nodes = [node] ∧ node.SpansColumns 3 := by
  refine ⟨.element "tr" [] (nodesAll cells), rfl, rfl, ?_, ?_⟩
  · rwa [content_element, hcells]
  · simp only [List.forall_mem_cons] at hcolumns
    simp [hcells, hcolumns]

/-- **The rows of a routine span three columns**, those on which its parameters go on as well as
the first one. -/
theorem exists_row_routineRows (typeName : String) (showModifiers : Bool) (r : Routine) :
    ∀ m ∈ routineRows typeName showModifiers r,
      ∃ node, m.nodes = [node] ∧ node.SpansColumns 3 := by
  intro m hm
  unfold routineRows at hm
  cases hrows : closeRows (parameterRows r) with
  | nil => simp [hrows] at hm
  | cons content rest =>
    rw [hrows, List.mem_cons, List.mem_map] at hm
    obtain rfl | ⟨content, -, rfl⟩ := hm
    · exact exists_row rfl (by simp [name?]) (by simp [columns_aligned])
    · exact exists_row rfl (by simp [name?]) (by simp [columns_aligned, columns_cell])

/-! ## The tables in a label -/

/-- What a table of routines may be called. -/
def routineTitles : List String := ["ROUTINES", "PUBLIC ROUTINES"]

/-- **The tables of routines** in the table of a label, by their titles. -/
def routineTables (table : Node) : List Node :=
  table.tables.filter fun t => t.title ∈ routineTitles

/-- What a section with a table of its own is read as. -/
def sectionTable (title : String) (colour : Colour) (rows : List Markup) : Node :=
  .element "table" [("border", "0"), ("cellborder", "0")] (nodesAll (heading title colour :: rows))

/-- The title of a section is the text of its heading. -/
theorem title_sectionTable (title : String) (colour : Colour) (rows : List Markup) :
    (sectionTable title colour rows).title = title := by
  simp [sectionTable, Node.title, Node.content, nodesAll, heading, row, cell, sized, bold, nodes,
    chars, charsAll]

theorem rowTables_ownSection (title : String) (colour : Colour) (rows : List Markup) :
    (ownSection title colour rows).nodes.flatMap rowTables = [sectionTable title colour rows] := rfl

/-- Character data holds no tables. -/
@[simp] theorem filter_name_map_char (name : String) (cs : List Char) :
    (cs.map Node.char).filter (fun node => node.name? = some name) = [] := by
  simp [List.filter_eq_nil_iff, name?]

theorem rowTables_heading (title : String) (colour : Colour) :
    (heading title colour).nodes.flatMap rowTables = [] := rfl

theorem rowTables_tagRow (t : TagUse) : (tagRow t).nodes.flatMap rowTables = [] := by
  simp [tagRow, rowTables, nodesAll, nodes]

theorem rowTables_titleRows (r : TypeRecord) :
    ∀ m ∈ titleRows r, m.nodes.flatMap rowTables = [] := by
  intro m hm
  simp only [titleRows, List.mem_cons, List.mem_append, List.mem_map, List.cons_append,
    List.not_mem_nil, or_false] at hm
  obtain rfl | ⟨package, -, rfl⟩ | rfl := hm
  · simp [rowTables, nodesAll, nodes]
  · rfl
  · rfl

theorem rowTables_tagSection (colour : Colour) (r : TypeRecord) :
    ∀ m ∈ tagSection colour r, m.nodes.flatMap rowTables = [] := by
  unfold tagSection
  split
  · simp
  · rw [List.forall_mem_cons]
    refine ⟨rowTables_heading _ _, fun m hm => ?_⟩
    obtain ⟨t, -, rfl⟩ := List.mem_map.1 hm
    exact rowTables_tagRow t

/-- The table of attributes is not one of routines. -/
theorem title_rowTables_attributeSection (scan : ScanSettings) (diagram : DiagramSettings)
    (colour : Colour) (r : TypeRecord) :
    ∀ m ∈ attributeSection scan diagram colour r, ∀ t ∈ m.nodes.flatMap rowTables,
      t.title ∉ routineTitles := by
  unfold attributeSection
  split
  · simp only [List.forall_mem_singleton, rowTables_ownSection, title_sectionTable]
    split <;> decide
  · simp

/-- **What the table of a record is read as.** -/
def readTable (scan : ScanSettings) (diagram : DiagramSettings) (colour : Colour)
    (r : TypeRecord) : Node :=
  .element "table" [("border", "0"), ("cellborder", "0"), ("cellspacing", "1")]
    (nodesAll (titleRows r ++ tagSection colour r ++ attributeSection scan diagram colour r
      ++ routineSection scan diagram colour r))

/-- **There is one table of routines**, that of their section, if there is the section. -/
theorem routineTables_readTable (scan : ScanSettings) (diagram : DiagramSettings)
    (colour : Colour) (r : TypeRecord) :
    routineTables (readTable scan diagram colour r)
      = if diagram.showRoutines ∧ (r.routines.filter fun x => !x.isStaticInitializer) ≠ [] then
          [sectionTable (if !scan.ignoreRoutineVisibility then "PUBLIC ROUTINES" else "ROUTINES")
            colour ((byName (·.name) (r.routines.filter fun x => !x.isStaticInitializer)).flatMap
              (routineRows r.simpleName !scan.ignoreRoutineVisibility))]
        else [] := by
  have htitle : (titleRows r).flatMap (fun m => m.nodes.flatMap rowTables) = [] :=
    List.flatMap_eq_nil_iff.2 (rowTables_titleRows r)
  have htag : (tagSection colour r).flatMap (fun m => m.nodes.flatMap rowTables) = [] :=
    List.flatMap_eq_nil_iff.2 (rowTables_tagSection colour r)
  have hattribute : ((attributeSection scan diagram colour r).flatMap
      fun m => m.nodes.flatMap rowTables).filter (fun t => t.title ∈ routineTitles) = [] := by
    refine List.filter_eq_nil_iff.2 fun t ht => ?_
    obtain ⟨m, hm, ht⟩ := List.mem_flatMap.1 ht
    simpa using title_rowTables_attributeSection scan diagram colour r m hm t ht
  rw [routineTables, tables, readTable, content_element, nodesAll_eq_flatMap, List.flatMap_assoc,
    List.flatMap_append, List.flatMap_append, List.flatMap_append, htitle, htag,
    List.filter_append, List.filter_append, hattribute, List.nil_append, List.filter_nil,
    List.nil_append, List.nil_append]
  dsimp only [routineSection]
  split
  · rw [List.flatMap_singleton, rowTables_ownSection, List.filter_cons_of_pos, List.filter_nil]
    -- either title is one of routines
    rw [title_sectionTable]
    split <;> decide
  · rfl

/-- The rows of the table of routines: the heading, and those of each routine. -/
theorem content_routineTable (title : String) (colour : Colour) (typeName : String)
    (showModifiers : Bool) (routines : List Routine) :
    let table := sectionTable title colour (routines.flatMap (routineRows typeName showModifiers))
    table.content.length = 1 + (routines.map fun x => (parameterRows x).length).sum
      ∧ ∀ row ∈ table.content, row.SpansColumns 3 := by
  intro table
  have hrows : ∀ m ∈ heading title colour :: routines.flatMap (routineRows typeName showModifiers),
      ∃ node, m.nodes = [node] ∧ node.SpansColumns 3 := by
    refine List.forall_mem_cons.2 ⟨exists_row_heading title colour, fun m hm => ?_⟩
    obtain ⟨x, -, hm⟩ := List.mem_flatMap.1 hm
    exact exists_row_routineRows typeName showModifiers x m hm
  obtain ⟨hlength, hforall⟩ := nodesAll_of_forall hrows
  refine ⟨?_, hforall⟩
  rw [List.length_cons, List.length_flatMap, Nat.add_comm] at hlength
  simp only [length_routineRows] at hlength
  exact hlength

/-! ## The label -/

/-- **A text that is a label**, read as an element. -/
structure IsLabel (cs : List Char) (table : Node) : Prop where
  /-- It is printable. -/
  isPrintable : ∀ c ∈ cs, Entity.isPrintable c = true
  /-- Before its end, an angle bracket is open. -/
  depth_pos : ∀ front back, cs = front ++ back → front ≠ [] → back ≠ [] → 0 < Lexeme.depth front
  /-- At its end, none is. -/
  depth_eq_zero : Lexeme.depth cs = 0
  /-- Each ampersand begins an entity that stands for a character. -/
  exists_entity : ∀ before after, cs = before ++ '&' :: after →
    ∃ body rest c, after = body ++ ';' :: rest ∧ Entity.decode? body = some c
  /-- Between its outer angle brackets there is one element, in which all are closed in order. -/
  read : ∃ body, cs = '<' :: body ++ ['>'] ∧ Markup.read? body = some [table]

/-- **Every label is the label of its table.** -/
theorem isLabel_render (scan : ScanSettings) (diagram : DiagramSettings) (colour : Colour)
    (r : TypeRecord) : IsLabel (render scan diagram colour r) (readTable scan diagram colour r) := by
  have htame := tame_table scan diagram colour r
  have hencoded : Entity.Encoded (render scan diagram colour r) :=
    .char (by decide) (by decide)
      (htame.encoded_render.append (.char (by decide) (by decide) .nil))
  exact
    { isPrintable := hencoded.isPrintable
      depth_pos := fun _ _ hcs hfront hback => htame.balanced_render.depth_pos hcs hfront hback
      depth_eq_zero := (htame.balanced_render.nest .nil).depth_eq_zero
      exists_entity := fun _ _ hcs => hencoded.exists_entity hcs
      read := ⟨_, rfl, htame.read?_render⟩ }

/-- **A label is one table, whatever it is the label of.** If routines are shown, one table in it
is of routines, and each row of that, the heading and the rows on which long lists of parameters
go on included, spans three columns. -/
theorem exists_isLabel (scan : ScanSettings) (diagram : DiagramSettings) (colour : Colour)
    (r : TypeRecord) :
    let routines := r.routines.filter fun routine => !routine.isStaticInitializer
    ∃ table, IsLabel (render scan diagram colour r) table ∧ table.name? = some "table"
      ∧ (∀ t ∈ routineTables table, ∀ row ∈ t.content, row.SpansColumns 3)
      ∧ (routineTables table).map (fun t => t.content.length)
          = if diagram.showRoutines ∧ routines ≠ [] then
              [1 + (routines.map fun x => (parameterRows x).length).sum]
            else [] := by
  intro routines
  refine ⟨_, isLabel_render scan diagram colour r, rfl, ?_⟩
  rw [routineTables_readTable]
  by_cases hshown : diagram.showRoutines ∧ routines ≠ []
  · have hsum : ((byName (·.name) routines).map fun x => (parameterRows x).length).sum
        = (routines.map fun x => (parameterRows x).length).sum :=
      ((List.mergeSort_perm routines _).map _).sum_nat
    obtain ⟨hlength, hspans⟩ := content_routineTable
      (if !scan.ignoreRoutineVisibility then "PUBLIC ROUTINES" else "ROUTINES") colour
      r.simpleName (!scan.ignoreRoutineVisibility) (byName (·.name) routines)
    rw [if_pos hshown, if_pos hshown, List.forall_mem_singleton, List.map_singleton, ← hsum]
    exact ⟨hspans, congrArg (fun count => [count]) hlength⟩
  · rw [if_neg hshown, if_neg hshown]
    exact ⟨nofun, rfl⟩

end Label

end TypeAtlas
