import TypeAtlas.Record.TypeRecord

/-!
# Declarations

A record can be put together step by step: it starts as a type that declares nothing,
and each declaration adds what it says and leaves the rest alone.
-/

namespace TypeAtlas

/-- **Something that a type declares.** -/
inductive Declaration where
  /-- The type extends a class, in place of any class named before. -/
  | superclass (name : String)
  /-- The type implements an interface. -/
  | interface (name : String)
  /-- The type extends an interface. -/
  | superinterface (name : String)
  /-- The type carries a tag. -/
  | tagged (tag : TagUse)
  /-- The type has a modifier. -/
  | modifiedBy (modifier : Modifier)
  /-- The type has an attribute. -/
  | withAttribute (added : Attribute)
  /-- The type has a routine. -/
  | withRoutine (added : Routine)
  /-- The type was loaded from a place. -/
  | loadedFrom (place : String)
  /-- The type is only referred to. -/
  | external
  /-- The type is an enumeration. -/
  | enumeration

/-- **A record with one more declaration.** Lists grow at their end. -/
def TypeRecord.declare (r : TypeRecord) : Declaration → TypeRecord
  | .superclass name => { r with superclass := some name }
  | .interface name => { r with interfaces := r.interfaces ++ [name] }
  | .superinterface name => { r with superinterfaces := r.superinterfaces ++ [name] }
  | .tagged tag => { r with tags := r.tags ++ [tag] }
  | .modifiedBy modifier => { r with modifiers := r.modifiers ++ [modifier] }
  | .withAttribute added => { r with attributes := r.attributes ++ [added] }
  | .withRoutine added => { r with routines := r.routines ++ [added] }
  | .loadedFrom place => { r with origins := r.origins ++ [place] }
  | .external => { r with isExternal := true }
  | .enumeration => { r with isEnum := true }

/-- No declaration changes the name of a type. -/
@[simp] theorem TypeRecord.name_declare (r : TypeRecord) (d : Declaration) :
    (r.declare d).name = r.name := by cases d <;> rfl

/-- No declaration changes the kind of a type. -/
@[simp] theorem TypeRecord.kind_declare (r : TypeRecord) (d : Declaration) :
    (r.declare d).kind = r.kind := by cases d <;> rfl

/-- **The records on the way**, from the first one on, one more per declaration. -/
def TypeRecord.stages (r : TypeRecord) : List Declaration → List TypeRecord
  | [] => [r]
  | d :: rest => r :: (r.declare d).stages rest

end TypeAtlas
