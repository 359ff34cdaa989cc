import TypeAtlas.Record.TypeRecord

/-!
# Relations between types

A record declares relations of nine kinds, each from its own type, the carrier, to a
type named in the record, the target. `TypeRecord.targets` lists the names that a record
declares for one kind of relation, and `TypeRecord.relations` goes through all kinds;
whether a target has a kind of type that the relation may lead to is decided by
`RelationKind.fits`.
-/

namespace TypeAtlas

/-- **A kind of relation**, from a carrier to a target. -/
inductive RelationKind where
  /-- From a class to the class it extends. -/
  | extendsClass
  /-- From a class to an interface it implements. -/
  | implementsInterface
  /-- From an interface to an interface it extends. -/
  | extendsInterface
  /-- From a class or an interface to a tag on it. -/
  | taggedBy
  /-- From a tag to a tag on it. -/
  | metaTaggedBy
  /-- From a type to a tag on one of its attributes. -/
  | attributeTaggedBy
  /-- From a type to a tag on one of its routines. -/
  | routineTaggedBy
  /-- From a type to a type named by one of its attributes. -/
  | attributeTypeRef
  /-- From a type to a type named by one of its routines. -/
  | routineTypeRef
  deriving DecidableEq

namespace RelationKind

/-- The relations in their order. -/
def all : List RelationKind :=
  [extendsClass, implementsInterface, extendsInterface, taggedBy, metaTaggedBy,
   attributeTaggedBy, routineTaggedBy, attributeTypeRef, routineTypeRef]

/-- The place of a relation in their order. -/
def rank (k : RelationKind) : Nat := all.idxOf k

/-- The word for a relation. -/
def word : RelationKind → String
  | extendsClass => "Extends"
  | implementsInterface => "Implements"
  | extendsInterface => "ExtendsInterface"
  | taggedBy => "TaggedBy"
  | metaTaggedBy => "MetaTaggedBy"
  | attributeTaggedBy => "AttributeTaggedBy"
  | routineTaggedBy => "RoutineTaggedBy"
  | attributeTypeRef => "AttributeTypeRef"
  | routineTypeRef => "RoutineTypeRef"

@[simp] theorem mem_all (k : RelationKind) : k ∈ all := by cases k <;> decide

theorem nodup_all : all.Nodup := by decide

theorem getElem?_rank (k : RelationKind) : all[k.rank]? = some k := by cases k <;> rfl

theorem rank_injective {k l : RelationKind} (h : k.rank = l.rank) : k = l :=
  Option.some.inj ((getElem?_rank k).symm.trans (h ▸ getElem?_rank l))

/-- **Which kinds of types a relation connects.** Only a type reference leads from any
kind to any kind. -/
def fits (k : RelationKind) (carrier target : TypeKind) : Bool :=
  match k with
  | extendsClass => carrier = .standard && target = .standard
  | implementsInterface => carrier = .standard && target = .interface
  | extendsInterface => carrier = .interface && target = .interface
  | taggedBy => carrier ≠ .tag && target = .tag
  | metaTaggedBy => carrier = .tag && target = .tag
  | attributeTaggedBy => target = .tag
  | routineTaggedBy => target = .tag
  | attributeTypeRef => true
  | routineTypeRef => true

end RelationKind

/-- **The names that a record declares** for a relation. The tags on a tag are its
meta-tags. -/
def TypeRecord.targets (r : TypeRecord) : RelationKind → List String
  | .extendsClass => r.superclass.toList
  | .implementsInterface => r.interfaces
  | .extendsInterface => r.superinterfaces
  | .taggedBy => if r.kind = .tag then [] else r.tags.map (·.name)
  | .metaTaggedBy => if r.kind = .tag then r.tags.map (·.name) else []
  | .attributeTaggedBy => NameList.ofList r.attributeTags
  | .routineTaggedBy => NameList.ofList r.routineTags
  | .attributeTypeRef => r.attributeNames
  | .routineTypeRef => r.routineNames

/-- **The relations that a record declares**, each with the name of its target, in the
order of the relations. -/
def TypeRecord.relations (r : TypeRecord) : List (RelationKind × String) :=
  RelationKind.all.flatMap fun k => (r.targets k).map fun name => (k, name)

end TypeAtlas
