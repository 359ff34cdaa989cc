import TypeAtlas.Proofs.Drawing
import TypeAtlas.Proofs.Label
import TypeAtlas.Proofs.Outline

/-!
# Diagrams are read back

The text of a diagram goes by names that nobody has checked: any characters may stand in
the names of types and members, in tags and in signatures. Still, a reader that knows the
lexical rules alone gets out of the text the outline that was meant, and no other
(`exists_outline`): the header for the width and the height, the node of each known name
that is to be visible, and the edges between them.

The pieces are read one by one. Header lines and the looks of nodes and edges are made of
plain words, so what is left are the ids and the labels, which are read back whatever they
hold (`Lexeme.lex_quoteId`, `Label.lex_render`).
-/

namespace TypeAtlas

open Lexeme

/-! ## The header -/

/-- Whether a character stands in numbers. -/
def isNumeral (c : Char) : Bool := c.isAlphanum || c == '.' || c == '-'

theorem Decimal.all_positional (d : Decimal) : d.positional.all isNumeral = true := by
  have hdigits : ∀ c ∈ Nat.toDigits 10 d.digits, isNumeral c = true := by
    intro c hc
    have hdigit := Nat.isDigit_of_mem_toDigits (by decide) (by decide) hc
    simp [isNumeral, Char.isAlphanum, hdigit]
  have hzeros : ∀ n, ∀ c ∈ List.replicate n '0', isNumeral c = true := by
    intro n c hc
    rw [List.eq_of_mem_replicate hc]
    decide
  have hpoint : isNumeral '.' = true := by decide
  have hzero : isNumeral '0' = true := by decide
  rw [List.all_eq_true]
  dsimp only [positional]
  split
  · exact List.forall_mem_append.2 ⟨hdigits, hzeros _⟩
  · split
    · exact List.forall_mem_append.2 ⟨fun c hc => hdigits c (List.mem_of_mem_take hc),
        List.forall_mem_cons.2 ⟨hpoint, fun c hc => hdigits c (List.mem_of_mem_drop hc)⟩⟩
    · exact List.forall_mem_cons.2 ⟨hzero, List.forall_mem_cons.2 ⟨hpoint,
        List.forall_mem_append.2 ⟨hzeros _, hdigits⟩⟩⟩

theorem Binary.all_positionalText {format : BinaryFormat} (b : Binary format) :
    b.positionalText.toList.all isNumeral = true := by
  have hsign : ∀ negative, (signText negative).all isNumeral = true := by decide
  unfold positionalText
  split
  · decide
  · rw [String.toList_ofList, List.all_append, hsign]
    decide
  · rw [String.toList_ofList, List.all_append, hsign]
    decide
  · rw [String.toList_ofList, List.all_append, hsign, Decimal.all_positional]
    rfl

/-- The characters of a text, as lexemes. -/
def marks (text : String) : List Lexeme := text.toList.map mark

/-- The header line that opens the graph. -/
def openLine : HeaderLine := ⟨'d', marks "igraph \x7b", by decide, by decide⟩

/-- The header line that gives the size of the canvas. -/
def sizeLine (width height : Binary32) : HeaderLine where
  first := 's'
  rest := marks "ize="
    ++ [quoted (width.positionalText ++ "," ++ height.positionalText), mark ';']
  first_ne := by decide
  unbroken := by simp [marks]

/-- The header lines that are the same for all canvases. -/
def layoutLines : List HeaderLine :=
  [⟨'l', marks "ayout=dot;", by decide, by decide⟩,
   ⟨'r', marks "ankdir=" ++ [quoted "BT", mark ';'], by decide, by decide⟩,
   ⟨'o', marks "verlap=false;", by decide, by decide⟩,
   ⟨'s', marks "plines=true;", by decide, by decide⟩,
   ⟨'p', marks "ack=true;", by decide, by decide⟩,
   ⟨'g', marks "raph [fontname = " ++ [quoted "Courier, Regular", mark ']'], by decide,
    by decide⟩,
   ⟨'n', marks "ode [fontname = " ++ [quoted "Courier, Regular", mark ']'], by decide,
    by decide⟩,
   ⟨'e', marks "dge [fontname = " ++ [quoted "Courier, Regular", mark ']'], by decide,
    by decide⟩]

/-- **The lines of the header**, for a canvas of a width and a height. -/
def headerLines (width height : Binary32) : List HeaderLine :=
  openLine :: sizeLine width height :: layoutLines

theorem lex_sizeLine (width height : Binary32) :
    lex (Document.sizeLine width height).toList
      = some ((sizeLine width height).body ++ [mark '\n']) := by
  have hnumeral : ∀ c : Char, isNumeral c = true → isVerbatim c = true := by
    intro c hc
    have hne : c ≠ '\x22' ∧ c ≠ '\\' := by
      constructor <;> rintro rfl <;> exact absurd hc (by decide)
    simp [isVerbatim, hne]
  have hnumber : ∀ b : Binary32, b.positionalText.toList.all isVerbatim = true := by
    intro b
    rw [List.all_eq_true]
    exact fun c hc => hnumeral c (List.all_eq_true.1 b.all_positionalText c hc)
  have hcomma : ",".toList.all isVerbatim = true := by decide
  have hsize :
      (width.positionalText ++ "," ++ height.positionalText).toList.all isVerbatim = true := by
    simp only [String.toList_append, List.all_append, hnumber, hcomma, Bool.and_self]
  have htext : (Document.sizeLine width height).toList = "size=".toList
      ++ (quoteId (width.positionalText ++ "," ++ height.positionalText) ++ ";\n".toList) := by
    rw [quoteId_eq hsize]
    simp [Document.sizeLine, String.toList_append]
  rw [htext, lex_append (lex_marks (by decide))
    (lex_append (lex_quoteId _) (lex_marks (by decide)))]
  simp [HeaderLine.body, sizeLine, marks]

/-- **The header is read back** for every width and height. -/
theorem lex_header (width height : Binary32) :
    lex (Document.header width height)
      = some (lines HeaderLine.body (headerLines width height)) := by
  have hopen : lex "digraph \x7b\n".toList = some (openLine.body ++ [mark '\n']) := by
    decide
  have hlayout : lex (Document.layoutLines.flatMap fun line => line.toList ++ ['\n'])
      = some (lines HeaderLine.body layoutLines) := by
    decide +kernel
  have hlines : lines HeaderLine.body (headerLines width height)
      = openLine.body ++ [mark '\n'] ++ ((sizeLine width height).body ++ [mark '\n'])
        ++ lines HeaderLine.body layoutLines := by
    simp only [headerLines, lines_cons, List.append_assoc]
  rw [hlines]
  exact lex_append (lex_append hopen (lex_sizeLine width height)) hlayout

/-! ## Nodes and edges -/

/-- What stands between the id and the label of a node, by the kind of its type. -/
def TypeKind.look (k : TypeKind) : List Lexeme :=
  marks ("[shape=" ++ k.style.shape ++ ",style=filled,fillcolor=")
    ++ quoted k.style.fill.text :: marks ",label="

theorem TypeKind.unbroken_look (k : TypeKind) : mark '\n' ∉ k.look := by
  cases k <;> decide

theorem TypeKind.lex_look (k : TypeKind) :
    lex ("[shape=" ++ k.style.shape ++ ",style=filled,fillcolor=\"" ++ k.style.fill.text
      ++ "\",label=").toList = some k.look := by
  have hfill : k.style.fill.text.toList.all isVerbatim = true := by
    cases k <;> decide
  have hbefore :
      ("[shape=" ++ k.style.shape ++ ",style=filled,fillcolor=").toList.all isMark = true := by
    cases k <;> decide
  have htext : ("[shape=" ++ k.style.shape ++ ",style=filled,fillcolor=\"" ++ k.style.fill.text
      ++ "\",label=").toList
      = ("[shape=" ++ k.style.shape ++ ",style=filled,fillcolor=").toList
        ++ (quoteId k.style.fill.text ++ ",label=".toList) := by
    rw [quoteId_eq hfill]
    simp [String.toList_append]
  rw [htext]
  exact lex_append (lex_marks hbefore) (lex_append (lex_quoteId _) (lex_marks (by decide)))

theorem RelationKind.all_attributes (k : RelationKind) :
    k.style.attributes.toList.all (fun c => c != '\n' && isMark c) = true := by
  cases k <;> decide

theorem RelationKind.unbroken_attributes (k : RelationKind) :
    mark '\n' ∉ marks k.style.attributes := by
  intro h
  obtain ⟨c, hc, heq⟩ := List.mem_map.1 h
  have hne := List.all_eq_true.1 k.all_attributes c hc
  simp [Lexeme.mark.inj heq] at hne

theorem RelationKind.lex_attributes (k : RelationKind) :
    lex k.style.attributes.toList = some (marks k.style.attributes) := by
  refine lex_marks (List.all_eq_true.2 fun c hc => ?_)
  have hmark := List.all_eq_true.1 k.all_attributes c hc
  rw [Bool.and_eq_true] at hmark
  exact hmark.2

theorem EdgeStatement.ofRelation_eq (carrier : String) (k : RelationKind)
    (target : String) :
    ofRelation carrier k target
      = if k = .attributeTypeRef ∨ k = .routineTypeRef then
          ⟨target, carrier, k.style.attributes⟩
        else ⟨carrier, target, k.style.attributes⟩ := by
  cases k <;> rfl

namespace TypeGraph

/-- **The line of a node**: its name, a look by its kind, and the table of its record. -/
def nodeLine (g : TypeGraph) (settings : DiagramSettings) (i : g.Node) : NodeLine where
  id := g.name i
  look := (g.record i).kind.look
  label := (Label.table g.settings settings (g.record i).kind.style.heading (g.record i)).render
  unbroken := (g.record i).kind.unbroken_look

/-- **The line of an edge**, from its carrier to its target. A type reference is drawn the
other way round. -/
def edgeLine (g : TypeGraph) (e : Edge g.toPopulation) : EdgeLine where
  tail :=
    if e.relation = .attributeTypeRef ∨ e.relation = .routineTypeRef then g.name e.target
    else g.name e.carrier
  head :=
    if e.relation = .attributeTypeRef ∨ e.relation = .routineTypeRef then g.name e.carrier
    else g.name e.target
  attributes := marks e.relation.style.attributes
  unbroken := e.relation.unbroken_attributes

theorem lex_nodeStatement (g : TypeGraph) (settings : DiagramSettings) (i : g.Node) :
    lex (g.nodeStatement settings i).text
      = some ((g.nodeLine settings i).body ++ [mark '\n']) := by
  have hend : lex [']', ';', '\n'] = some [mark ']', mark ';', mark '\n'] := by decide
  have hbody : (g.nodeLine settings i).body ++ [mark '\n']
      = [quoted (g.name i)] ++ (g.record i).kind.look
        ++ [.label (Label.table g.settings settings (g.record i).kind.style.heading
          (g.record i)).render] ++ [mark ']', mark ';', mark '\n'] := by
    simp [NodeLine.body, nodeLine]
  rw [hbody]
  exact lex_append (lex_append (lex_append (lex_quoteId (g.name i))
    (g.record i).kind.lex_look) (Label.lex_render _ _ _ _)) hend

theorem lex_edgeStatement (g : TypeGraph) (e : Edge g.toPopulation) :
    lex (g.edgeStatement e).text = some ((g.edgeLine e).body ++ [mark '\n']) := by
  have hindent : lex [' ', ' '] = some [mark ' ', mark ' '] := by decide
  have harrow : lex [' ', '-', '>', ' '] = some [mark ' ', mark '-', mark '>', mark ' '] := by
    decide
  have hopen : lex [' ', '['] = some [mark ' ', mark '['] := by decide
  have hclose : lex [']', '\n'] = some [mark ']', mark '\n'] := by decide
  -- between the plain characters stand two ids, whichever of the nodes comes first
  have hline : ∀ tail head : String,
      lex (EdgeStatement.text ⟨tail, head, e.relation.style.attributes⟩)
        = some (EdgeLine.body ⟨tail, head, marks e.relation.style.attributes,
          e.relation.unbroken_attributes⟩ ++ [mark '\n']) := by
    intro tail head
    have h := lex_append (lex_append (lex_append (lex_append (lex_append (lex_append hindent
      (lex_quoteId tail)) harrow) (lex_quoteId head)) hopen) e.relation.lex_attributes) hclose
    simpa [EdgeStatement.text, EdgeLine.body] using h
  rw [edgeStatement, EdgeStatement.ofRelation_eq]
  by_cases hreversed : e.relation = .attributeTypeRef ∨ e.relation = .routineTypeRef
  · simpa only [edgeLine, if_pos hreversed] using hline (g.name e.target) (g.name e.carrier)
  · simpa only [edgeLine, if_neg hreversed] using hline (g.name e.carrier) (g.name e.target)

/-! ## Diagrams -/

/-- The outline of the diagram for some names. -/
def outline (g : TypeGraph) (settings : DiagramSettings) (visible : List String) :
    Outline where
  header := headerLines settings.width settings.height
  nodes := (g.drawn visible).map (g.nodeLine settings)
  edges := (g.drawnEdges (g.drawn visible)).map g.edgeLine

/-- **The text of a diagram is read as its outline.** -/
theorem lex_diagram (g : TypeGraph) (settings : DiagramSettings) (visible : List String) :
    lex (g.diagram settings visible).text.toList
      = some (g.outline settings visible).lexemes := by
  have hblank : lex ['\n'] = some [mark '\n'] := by decide
  have hclose : lex ['\x7d'] = some [mark '\x7d'] := by decide
  have h := lex_append (lex_append (lex_append (lex_append
    (lex_header settings.width settings.height)
    (lex_flatMap (g.lex_nodeStatement settings) (g.drawn visible))) hblank)
    (lex_flatMap g.lex_edgeStatement (g.drawnEdges (g.drawn visible)))) hclose
  have htext : (g.diagram settings visible).text.toList
      = Document.header settings.width settings.height
        ++ (g.drawn visible).flatMap (fun i => (g.nodeStatement settings i).text) ++ ['\n']
        ++ (g.drawnEdges (g.drawn visible)).flatMap (fun e => (g.edgeStatement e).text)
        ++ ['\x7d'] := by
    simp only [Document.text, diagram, drawnEdges, String.toList_ofList, List.flatMap_map,
      List.append_assoc, List.cons_append, List.nil_append]
  have hlexemes : (g.outline settings visible).lexemes
      = lines HeaderLine.body (headerLines settings.width settings.height)
        ++ (g.drawn visible).flatMap (fun i => (g.nodeLine settings i).body ++ [mark '\n'])
        ++ [mark '\n']
        ++ (g.drawnEdges (g.drawn visible)).flatMap
          (fun e => (g.edgeLine e).body ++ [mark '\n'])
        ++ [mark '\x7d'] := by
    simp only [Outline.lexemes, outline, lines, List.flatMap_map, List.append_assoc,
      List.cons_append, List.nil_append]
  rw [htext, hlexemes]
  exact h

/-- The ids in an outline are the visible names that have a record, without the root
type. -/
theorem mem_ids_outline {g : TypeGraph} {settings : DiagramSettings} {visible : List String}
    {name : String} :
    name ∈ (g.outline settings visible).nodes.map NodeLine.id
      ↔ name ∈ visible ∧ g.contains name = true ∧ name ≠ g.settings.rootType := by
  rw [outline, List.map_map, List.mem_map, contains_iff]
  constructor
  · rintro ⟨i, hi, rfl⟩
    obtain ⟨hvisible, hroot⟩ := mem_drawn.1 hi
    exact ⟨hvisible, ⟨i, rfl⟩, hroot⟩
  · rintro ⟨hvisible, ⟨i, rfl⟩, hroot⟩
    exact ⟨i, mem_drawn.2 ⟨hvisible, hroot⟩, rfl⟩

/-- **What an outline shows of a graph**: the nodes and edges that a diagram for some
names has to draw, in the order in which it has to draw them. -/
structure Depicts (g : TypeGraph) (settings : DiagramSettings) (visible : List String)
    (nodes : List g.Node) (edges : List (Edge g.toPopulation)) (o : Outline) : Prop where
  /-- The header is that of the canvas. -/
  header : o.header = headerLines settings.width settings.height
  /-- The nodes are those with a visible name, without the root type. -/
  mem_nodes : ∀ i, i ∈ nodes ↔ g.name i ∈ visible ∧ g.name i ≠ g.settings.rootType
  /-- So the ids are the visible names that have a record, without the root type. -/
  mem_ids : ∀ name, name ∈ o.nodes.map NodeLine.id
    ↔ name ∈ visible ∧ g.contains name = true ∧ name ≠ g.settings.rootType
  /-- The nodes ascend by kind and then by name, so there is one of each. -/
  pairwise_nodes : nodes.Pairwise g.Precedes
  /-- Each node has its line. -/
  nodeLines : o.nodes = nodes.map (g.nodeLine settings)
  /-- The edges are those of the graph between two of the nodes, each once. -/
  perm_edges :
    edges.Perm (g.edges.filter fun e => nodes.contains e.carrier && nodes.contains e.target)
  /-- The edges ascend by carrier, then by relation, then by target. -/
  pairwise_edges : edges.Pairwise g.PrecedesEdge
  /-- Each edge has its line. -/
  edgeLines : o.edges = edges.map g.edgeLine

/-- **The text of a diagram has one outline**, and it shows what was to be drawn, whatever
characters the records hold. -/
theorem exists_outline (g : TypeGraph) (settings : DiagramSettings) (visible : List String) :
    ∃ (o : Outline) (nodes : List g.Node) (edges : List (Edge g.toPopulation)),
      (∀ p : Outline, lex (g.diagram settings visible).text.toList = some p.lexemes ↔ p = o)
        ∧ g.Depicts settings visible nodes edges o := by
  have hnodes := g.pairwise_drawn visible
  refine ⟨g.outline settings visible, g.drawn visible, g.drawnEdges (g.drawn visible),
    fun p => ?_, ?_⟩
  · rw [lex_diagram]
    constructor
    · intro h
      exact (Outline.lexemes_injective (Option.some.inj h)).symm
    · rintro rfl
      rfl
  · exact {
      header := rfl
      mem_nodes := fun _ => mem_drawn
      mem_ids := fun _ => mem_ids_outline
      pairwise_nodes := hnodes
      nodeLines := rfl
      perm_edges := perm_drawnEdges hnodes
      pairwise_edges := pairwise_drawnEdges hnodes
      edgeLines := rfl }

end TypeGraph

end TypeAtlas
