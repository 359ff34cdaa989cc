import TypeAtlas.Graph.Basic
import TypeAtlas.Graph.Walk

/-!
# Listings and closure queries

A listing names the nodes of a graph that pass a test, in ascending order, without the
root type and the types that the settings do not expose. A question asks, about one type,
for the types that stand to it in the closure of a relation: its subclasses and theirs,
the tags on its tags, and so on. The walk behind an answer goes through hidden types;
only the listing leaves them out.
-/

namespace TypeAtlas

/-- **A question about a type.** -/
inductive Question where
  /-- Which classes extend it, in any number of steps. -/
  | subclasses
  /-- Which classes it extends, in any number of steps. -/
  | superclasses
  /-- Which interfaces extend it, in any number of steps. -/
  | subinterfaces
  /-- Which interfaces it extends, in any number of steps. -/
  | superinterfaces
  /-- Which classes implement it, themselves or by a superclass, directly or by a
  subinterface. -/
  | implementing
  /-- Which types carry the tag, directly or by a tag that carries it. -/
  | withTag
  /-- Which tags are on the type, directly or by a tag on it. -/
  | tagsOn
  /-- Which tags are on the tag, in any number of steps. -/
  | metaTagsOn
  /-- Which tags carry the tag, in any number of steps. -/
  | withMetaTag
  /-- Which types have a routine with the tag. -/
  | withRoutineTag
  /-- Which types have an attribute with the tag. -/
  | withAttributeTag
  deriving DecidableEq

/-- The questions in their order. -/
def Question.all : List Question :=
  [.subclasses, .superclasses, .subinterfaces, .superinterfaces, .implementing, .withTag,
   .tagsOn, .metaTagsOn, .withMetaTag, .withRoutineTag, .withAttributeTag]

@[simp] theorem Question.mem_all (q : Question) : q ∈ all := by cases q <;> decide

namespace TypeGraph

/-- **The names of some nodes**, each once and in ascending order, without the root type
and without the types that the settings do not expose. -/
def collectNames (g : TypeGraph) (nodes : List g.Node) : List String :=
  NameList.ofList ((nodes.filter fun i => !g.isRoot i && g.isVisible i).map g.name)

/-- The names of all types. -/
def allNames (g : TypeGraph) : List String := g.collectNames g.allNodes

/-- The names of all types of a kind. -/
def namesOfKind (g : TypeGraph) (kind : TypeKind) : List String :=
  g.collectNames (g.allNodes.filter fun i => (g.record i).kind = kind)

/-- The nodes that can be reached from some nodes along a relation, those nodes among
them. -/
def reach (g : TypeGraph) (relation : RelationKind) (direction : Direction)
    (seeds : List g.Node) : List g.Node :=
  Walk.reach (g.neighbours relation direction) seeds

/-- The types that can be reached from a type along a relation, without the type. -/
def closure (g : TypeGraph) (relation : RelationKind) (direction : Direction)
    (name : String) : List String :=
  match g.node? name with
  | none => []
  | some start =>
    g.collectNames ((g.reach relation direction [start]).filter fun i => i ≠ start)

/-- The classes that implement an interface. -/
def implementing (g : TypeGraph) (name : String) : List String :=
  match g.node? name with
  | none => []
  | some start =>
    let interfaces := g.reach .extendsInterface .incoming [start]
    let classes := g.reach .extendsClass .incoming
      (interfaces.flatMap (g.neighbours .implementsInterface .incoming))
    g.collectNames (classes.filter fun i => (g.record i).kind = .standard)

/-- The types that carry a tag. -/
def withTag (g : TypeGraph) (name : String) : List String :=
  match g.node? name with
  | none => []
  | some start =>
    let tags := g.reach .metaTaggedBy .incoming [start]
    let carriers := tags.flatMap (g.neighbours .taggedBy .incoming)
    g.collectNames (carriers.filter fun i => (g.record i).kind ≠ .tag)

/-- The tags on a type. -/
def tagsOn (g : TypeGraph) (name : String) : List String :=
  match g.node? name with
  | none => []
  | some start =>
    let tags := g.reach .metaTaggedBy .outgoing
      (g.neighbours .taggedBy .outgoing start ++ g.neighbours .metaTaggedBy .outgoing start)
    g.collectNames (tags.filter fun i => i ≠ start)

/-- The types that have a routine with a tag, whether or not the tag has a record. -/
def withRoutineTag (g : TypeGraph) (name : String) : List String :=
  g.collectNames (g.allNodes.filter fun i => (g.record i).hasRoutineTag name)

/-- The types that have an attribute with a tag, whether or not the tag has a record. -/
def withAttributeTag (g : TypeGraph) (name : String) : List String :=
  g.collectNames (g.allNodes.filter fun i => (g.record i).hasAttributeTag name)

/-- **The answer to a question** about a name. -/
def answer (g : TypeGraph) : Question → String → List String
  | .subclasses => g.closure .extendsClass .incoming
  | .superclasses => g.closure .extendsClass .outgoing
  | .subinterfaces => g.closure .extendsInterface .incoming
  | .superinterfaces => g.closure .extendsInterface .outgoing
  | .implementing => g.implementing
  | .withTag => g.withTag
  | .tagsOn => g.tagsOn
  | .metaTagsOn => g.closure .metaTaggedBy .outgoing
  | .withMetaTag => g.closure .metaTaggedBy .incoming
  | .withRoutineTag => g.withRoutineTag
  | .withAttributeTag => g.withAttributeTag

end TypeGraph

end TypeAtlas
