import TypeAtlas.Diagram.Label
import TypeAtlas.Diagram.Style
import TypeAtlas.Graph.Listing

/-!
# Diagram documents

A diagram is a document in the DOT language: a header, one statement per node, an empty
line, and one statement per edge. `TypeGraph.diagram` chooses the statements for the
types that are to be visible; `Document.text` writes them. An edge is drawn only if
both its types are visible, and the root type never is.
-/

namespace TypeAtlas

/-- **An id in quotes.** A quote and a backslash inside follow a backslash. -/
def quoteId (name : String) : List Char :=
  '\x22' :: name.toList.flatMap escape ++ ['\x22']
where
  /-- One character of an id. -/
  escape (c : Char) : List Char :=
    if c = '\\' then ['\\', '\\'] else if c = '\x22' then ['\\', '\x22'] else [c]

/-- **A node statement.** -/
structure NodeStatement where
  /-- The name of the type. -/
  id : String
  /-- The look of the node. -/
  style : NodeStyle
  /-- The text of the label. -/
  label : List Char

/-- **An edge statement.** -/
structure EdgeStatement where
  /-- The name of the type at the tail. -/
  tail : String
  /-- The name of the type at the head. -/
  head : String
  /-- The attributes of the edge. -/
  attributes : String

/-- **A diagram document.** -/
structure Document where
  /-- The width of the canvas. -/
  width : Binary32
  /-- The height of the canvas. -/
  height : Binary32
  /-- The nodes in order. -/
  nodes : List NodeStatement
  /-- The edges in order. -/
  edges : List EdgeStatement

namespace NodeStatement

/-- The line of a node statement. -/
def text (n : NodeStatement) : List Char :=
  quoteId n.id
    ++ ("[shape=" ++ n.style.shape ++ ",style=filled,fillcolor=\"" ++ n.style.fill.text
      ++ "\",label=").toList
    ++ n.label ++ [']', ';', '\n']

end NodeStatement

namespace EdgeStatement

/-- The line of an edge statement. -/
def text (e : EdgeStatement) : List Char :=
  ' ' :: ' ' :: quoteId e.tail ++ [' ', '-', '>', ' '] ++ quoteId e.head
    ++ ' ' :: '[' :: e.attributes.toList ++ [']', '\n']

/-- The statement that draws a relation between two types. -/
def ofRelation (carrier : String) (relation : RelationKind) (target : String) :
    EdgeStatement :=
  let style := relation.style
  if style.reversed then ⟨target, carrier, style.attributes⟩
  else ⟨carrier, target, style.attributes⟩

end EdgeStatement

namespace Document

/-- The line that gives the size of the canvas. -/
def sizeLine (width height : Binary32) : String :=
  "size=\"" ++ width.positionalText ++ "," ++ height.positionalText ++ "\";\n"

/-- The lines that tell how to lay out the diagram. -/
def layoutLines : List String :=
  ["layout=dot;", "rankdir=\"BT\";", "overlap=false;", "splines=true;", "pack=true;",
   "graph [fontname = \"Courier, Regular\"]", "node [fontname = \"Courier, Regular\"]",
   "edge [fontname = \"Courier, Regular\"]"]

/-- **The lines before the statements**, for a canvas of a width and a height. -/
def header (width height : Binary32) : List Char :=
  "digraph \x7b\n".toList ++ (sizeLine width height).toList
    ++ layoutLines.flatMap fun line => line.toList ++ ['\n']

/-- **The text of a document.** -/
def text (d : Document) : String :=
  String.ofList (header d.width d.height ++ d.nodes.flatMap NodeStatement.text
    ++ '\n' :: d.edges.flatMap EdgeStatement.text ++ ['\x7d'])

end Document

/-- Whether the rank of an item is lower than that of another, or the same and its name is
not after the other's. -/
def inOrder {α : Type} (rank : α → Nat) (name : α → String) (a b : α) : Bool :=
  rank a < rank b || (rank a = rank b && name a ≤ name b)

namespace TypeGraph

/-- Nodes stand by the kind of their types, and then by name. -/
def standsBefore (g : TypeGraph) : g.Node → g.Node → Bool :=
  inOrder (fun i => (g.record i).kind.rank) g.name

/-- **The nodes to draw** for some names: those with a record and not the root type, each
once. -/
def drawn (g : TypeGraph) (visible : List String) : List g.Node :=
  ((visible.filterMap g.node?).filter fun i => !g.isRoot i).eraseDups.mergeSort g.standsBefore

/-- Edges of a node stand by their relations, and then by the names of their targets. -/
def leavesBefore (g : TypeGraph) : Edge g.toPopulation → Edge g.toPopulation → Bool :=
  inOrder (fun e => e.relation.rank) fun e => g.name e.target

/-- **The edges to draw** from a node: those that lead to a node that is drawn. -/
def drawnFrom (g : TypeGraph) (nodes : List g.Node) (i : g.Node) :
    List (Edge g.toPopulation) :=
  (g.edges.filter fun e => e.carrier = i && e.target ∈ nodes).mergeSort g.leavesBefore

/-- The statement of a node. -/
def nodeStatement (g : TypeGraph) (diagram : DiagramSettings) (i : g.Node) :
    NodeStatement :=
  let r := g.record i
  ⟨r.name, r.kind.style, Label.render g.settings diagram r.kind.style.heading r⟩

/-- The statement of an edge. -/
def edgeStatement (g : TypeGraph) (e : Edge g.toPopulation) : EdgeStatement :=
  .ofRelation (g.name e.carrier) e.relation (g.name e.target)

/-- **The diagram of the types with some names.** Names without a record are passed
over. -/
def diagram (g : TypeGraph) (settings : DiagramSettings) (visible : List String) :
    Document :=
  let nodes := g.drawn visible
  { width := settings.width
    height := settings.height
    nodes := nodes.map (g.nodeStatement settings)
    edges := (nodes.flatMap (g.drawnFrom nodes)).map g.edgeStatement }

/-- The names of the types that are drawn when none are chosen: those that the settings
expose, without the root type. -/
def defaultVisible (g : TypeGraph) : List String :=
  NameList.ofList ((g.allNodes.filter fun i => g.isVisible i && !g.isRoot i).map g.name)

/-- **The diagram of the whole graph.** -/
def defaultDiagram (g : TypeGraph) (settings : DiagramSettings) : Document :=
  g.diagram settings g.defaultVisible

end TypeGraph

end TypeAtlas
