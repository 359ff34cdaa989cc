import TypeAtlas.Graph.Population
import TypeAtlas.Record.Arrangement
import TypeAtlas.Settings

/-!
# The type graph

A type graph is a population whose records came in strictly ascending order of their
names, with the edges among its nodes and the settings of the scan. There is one edge per
carrier, relation and target, and the inverse of a relation is read off the same edges
from the other end.

That the population was filled and its edges wired in the way of `Graph/Population` is
part of the type, so every graph is a graph of its records and nothing else.
-/

namespace TypeAtlas

/-- **A type graph.** -/
structure TypeGraph extends Population where
  /-- The settings of the scan. -/
  settings : ScanSettings
  /-- The relations among the nodes. -/
  edges : List (Edge toPopulation)
  /-- The names of the records are strictly ascending. -/
  ascending : nodes.toList.Pairwise fun a b => a.name < b.name
  /-- The population is that of its records. -/
  filled : Population.fill nodes.toList {} = some toPopulation
  /-- The edges are those that the records declare. -/
  wired : edges = toPopulation.wire

/-- **The end of an edge** that a walk along a relation goes to. -/
inductive Direction where
  /-- From carriers to targets. -/
  | outgoing
  /-- From targets to carriers. -/
  | incoming
  deriving DecidableEq

namespace TypeGraph

/-- The records of the graph, in ascending order of their names. -/
def records (g : TypeGraph) : List TypeRecord := g.nodes.toList

/-- The record with a name, whether or not it is shown. -/
def record? (g : TypeGraph) (name : String) : Option TypeRecord := (g.node? name).map g.record

/-- Whether there is a record with a name. -/
def contains (g : TypeGraph) (name : String) : Bool := (Entries.get? name g.index).isSome

/-- The number of records. -/
def recordCount (g : TypeGraph) : Nat := g.nodes.size

/-- The number of edges. -/
def edgeCount (g : TypeGraph) : Nat := g.edges.length

/-- All records in ascending order, external ones only on request. -/
def allRecords (g : TypeGraph) (includeExternal : Bool) : List TypeRecord :=
  TypeRecord.arrange (g.records.filter fun r => includeExternal || !r.isExternal)

/-- The records that the settings of the scan expose. -/
def exposedRecords (g : TypeGraph) : List TypeRecord :=
  g.allRecords g.settings.enableExternalTypes

/-- Where a type was loaded from, if its record says so. -/
def origins? (g : TypeGraph) (name : String) : Option (List String) :=
  Entries.get? name g.origins

/-- **The nodes one edge away** from a node, along a relation in a direction. -/
def neighbours (g : TypeGraph) (relation : RelationKind) (direction : Direction)
    (i : g.Node) : List g.Node :=
  match direction with
  | .outgoing =>
    (g.edges.filter fun e => e.carrier = i && e.relation = relation).map (·.target)
  | .incoming =>
    (g.edges.filter fun e => e.target = i && e.relation = relation).map (·.carrier)

/-- **The records one edge away** from a name, in ascending order and each once. -/
def direct (g : TypeGraph) (name : String) (relation : RelationKind)
    (direction : Direction) : List TypeRecord :=
  match g.node? name with
  | none => []
  | some i =>
    TypeRecord.dropRepeats
      (TypeRecord.arrange ((g.neighbours relation direction i).map g.record))

/-- The class that a class extends, if it has a record. -/
def superclass? (g : TypeGraph) (name : String) : Option TypeRecord :=
  (g.direct name .extendsClass .outgoing).head?

/-- Whether a node is the root type. -/
def isRoot (g : TypeGraph) (i : g.Node) : Bool := g.name i = g.settings.rootType

/-- **Whether the settings expose a node**: external types are exposed only if the scan
enables them. -/
def isVisible (g : TypeGraph) (i : g.Node) : Bool :=
  g.settings.enableExternalTypes || !(g.record i).isExternal

end TypeGraph

end TypeAtlas
