import TypeAtlas.Diagram.Colour
import TypeAtlas.Record.Relation

/-!
# The look of a diagram

Nodes have a shape and a fill by the kind of their type, and the section headings in
their labels are a darker shade of the fill. Edges have an arrow by their relation.
A type reference is drawn from the type that is referred to, with the arrow at its
tail, so that the layout puts what is used below what uses it.
-/

namespace TypeAtlas

/-- **The look of a node.** -/
structure NodeStyle where
  /-- The shape of the outline. -/
  shape : String
  /-- The colour inside. -/
  fill : Colour

/-- How dark a heading is beside the fill of its node: four fifths, in 32 bits. -/
def headingFactor : Binary32 := Binary.ofDecimal false 8 (-1)

/-- The colour behind the headings in a label. -/
def NodeStyle.heading (s : NodeStyle) : Colour := s.fill.darken headingFactor

/-- **The look of the nodes of a kind.** -/
def TypeKind.style : TypeKind → NodeStyle
  | standard => ⟨"box", ⟨0xff, 0xf2, 0xb6⟩⟩
  | interface => ⟨"diamond", ⟨0xb6, 0xe7, 0xff⟩⟩
  | tag => ⟨"oval", ⟨0xf3, 0xc9, 0xff⟩⟩

/-- **The look of an edge.** -/
structure EdgeStyle where
  /-- The attributes of the edge, without brackets. -/
  attributes : String
  /-- Whether the edge is drawn from the target to the carrier. -/
  reversed : Bool

/-- **The look of the edges of a relation.** Tags on attributes and on routines look the
same. -/
def RelationKind.style : RelationKind → EdgeStyle
  | extendsClass => ⟨"arrowhead=empty, arrowsize=2.5", false⟩
  | implementsInterface => ⟨"arrowhead=diamond, arrowsize=2.5", false⟩
  | extendsInterface => ⟨"arrowhead=odiamond, arrowsize=2.5", false⟩
  | taggedBy => ⟨"arrowhead=dot, arrowsize=2.5", false⟩
  | metaTaggedBy => ⟨"arrowhead=invdot, arrowsize=2.5", false⟩
  | attributeTaggedBy => ⟨"arrowhead=odot, arrowsize=2.5", false⟩
  | routineTaggedBy => ⟨"arrowhead=odot, arrowsize=2.5", false⟩
  | attributeTypeRef => ⟨"arrowtail=obox, arrowsize=2.5, dir=back", true⟩
  | routineTypeRef => ⟨"arrowtail=box, arrowsize=2.5, dir=back", true⟩

end TypeAtlas
