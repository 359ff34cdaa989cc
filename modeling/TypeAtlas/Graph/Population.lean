import TypeAtlas.Data
import TypeAtlas.Record.Relation

/-!
# Populations

A population holds the records that a scan has handed over. Each record is a node, known
by its number, which is its place in the order of arrival. Beside the nodes stand two
maps from names: the index, which leads from a name to the number of its node, and the
places that types were loaded from.

Nodes are added one by one. Once all are there, the relations that the records declare
are linked, also one by one: a declared name that the index does not know makes no edge,
nor does one whose node is of a kind that the relation does not lead to, and an edge that
is there already is not added again.
-/

namespace TypeAtlas

/-- **The records of a scan** as numbered nodes. -/
structure Population where
  /-- The records, in the order in which they were added. -/
  nodes : Array TypeRecord := #[]
  /-- The number of the node of each name. -/
  index : List (String × Nat) := []
  /-- The places that types were loaded from, for the types whose records name some. -/
  origins : List (String × List String) := []

namespace Population

/-- A node of a population: the number of a record. -/
abbrev Node (p : Population) : Type := Fin p.nodes.size

/-- The record of a node. -/
def record (p : Population) (i : p.Node) : TypeRecord := p.nodes[i]

/-- The name of a node. -/
def name (p : Population) (i : p.Node) : String := (p.record i).name

/-- **The node of a name**, as the index has it. -/
def node? (p : Population) (name : String) : Option p.Node :=
  (Entries.get? name p.index).bind fun i =>
    if h : i < p.nodes.size then some ⟨i, h⟩ else none

/-- All nodes in the order of their numbers. -/
def allNodes (p : Population) : List p.Node := List.finRange p.nodes.size

/-- A population with one more node. -/
def add (p : Population) (r : TypeRecord) : Population where
  nodes := p.nodes.push r
  index := Entries.set r.name p.nodes.size p.index
  origins := if r.origins = [] then p.origins else Entries.set r.name r.origins p.origins

/-- **A population with the records of a list added in order**, if all of them have a
name. -/
def fill : List TypeRecord → Population → Option Population
  | [], p => some p
  | r :: rest, p => if r.name = "" then none else fill rest (p.add r)

@[simp] theorem toList_nodes_add (p : Population) (r : TypeRecord) :
    (p.add r).nodes.toList = p.nodes.toList ++ [r] := by
  simp [add]

/-- The nodes of a filled population are the old ones and then the records. -/
theorem toList_nodes_of_fill {records : List TypeRecord} {p q : Population}
    (h : fill records p = some q) : q.nodes.toList = p.nodes.toList ++ records := by
  induction records generalizing p with
  | nil =>
    obtain rfl : p = q := by simpa [fill] using h
    simp
  | cons r rest ih =>
    unfold fill at h
    split at h
    · cases h
    · rw [ih h, toList_nodes_add, List.append_assoc, List.singleton_append]

end Population

/-- **An edge** of a population: the carrier declares the relation to the target. -/
structure Edge (p : Population) where
  /-- The node whose record declares the relation. -/
  carrier : p.Node
  /-- The relation. -/
  relation : RelationKind
  /-- The node that the relation leads to. -/
  target : p.Node
  deriving DecidableEq

namespace Population

/-- **One declared relation is linked**: the edge to the node of the target's name is
added, if there is such a node, the kinds of both ends fit, and it is not there yet. -/
def link (p : Population) (carrier : p.Node) (edges : List (Edge p))
    (declared : RelationKind × String) : List (Edge p) :=
  match p.node? declared.2 with
  | none => edges
  | some target =>
    let e : Edge p := ⟨carrier, declared.1, target⟩
    if !e.relation.fits (p.record carrier).kind (p.record target).kind then edges
    else if e ∈ edges then edges
    else edges ++ [e]

/-- All relations that a node declares are linked. -/
def linkNode (p : Population) (edges : List (Edge p)) (carrier : p.Node) : List (Edge p) :=
  (p.record carrier).relations.foldl (p.link carrier) edges

/-- **The edges of a population**: the relations of all its nodes, linked in order. -/
def wire (p : Population) : List (Edge p) := p.allNodes.foldl p.linkNode []

end Population

end TypeAtlas
