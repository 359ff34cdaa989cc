import TypeAtlas.Record.Signature
import TypeAtlas.Record.Vocabulary

/-!
# Type records

A scan hands over one record per type it has found: the name and kind of the type, the
types it extends and implements, the tags on it, its attributes and routines, and where
it was loaded from. Records hold the relations that the type itself declares; what
other types declare about it is found by looking at their records.
-/

namespace TypeAtlas

/-- **A named argument of a tag.** The value is the text that is shown. -/
structure TagArgument where
  /-- The name of the argument. -/
  name : String
  /-- The text of the value. -/
  value : String
  deriving DecidableEq

/-- **A tag attached to a declaration.** -/
structure TagUse where
  /-- The full name of the tag type. -/
  name : String
  /-- The arguments, in the order in which they are given. -/
  arguments : List TagArgument := []
  deriving DecidableEq

/-- **How a tag is shown**: an at sign and its name, then the arguments in parentheses
if there are any. -/
def TagUse.display (t : TagUse) : String :=
  match t.arguments with
  | [] => "@" ++ t.name
  | arguments =>
    "@" ++ t.name ++ "("
      ++ ", ".intercalate (arguments.map fun a => a.name ++ "=" ++ a.value) ++ ")"

/-- **An attribute** that a type declares. -/
structure Attribute where
  /-- The name of the attribute. -/
  name : String
  /-- The type of its values. -/
  signature : Signature
  /-- The tags on it. -/
  tags : List TagUse := []
  /-- Its modifiers, in any order. -/
  modifiers : List Modifier := []
  deriving DecidableEq

/-- **A parameter of a routine.** -/
structure Parameter where
  /-- The name, if the scan has found one. -/
  name : Option String := none
  /-- The type of its values. -/
  signature : Signature
  /-- The tags on it. -/
  tags : List TagUse := []
  deriving DecidableEq

/-- **A routine** that a type declares: a method, a constructor or an initializer. -/
structure Routine where
  /-- The name of the routine. -/
  name : String
  /-- The parameters in order. -/
  parameters : List Parameter := []
  /-- The type of the result. -/
  result : Signature
  /-- The tags on it. -/
  tags : List TagUse := []
  /-- Its modifiers, in any order. -/
  modifiers : List Modifier := []
  deriving DecidableEq

namespace Routine

/-- The name that every constructor has. -/
def constructorName : String := "<init>"

/-- The name that every static initializer has. -/
def initializerName : String := "<clinit>"

/-- A constructor without parameters. -/
def constructor : Routine where
  name := constructorName
  result := ⟨"void"⟩

/-- Whether the routine is a constructor. -/
def isConstructor (r : Routine) : Bool := r.name = constructorName

/-- Whether the routine is a static initializer. -/
def isStaticInitializer (r : Routine) : Bool := r.name = initializerName

/-- **The types named by a routine**: by its result or by a parameter. -/
def names (r : Routine) : List String :=
  NameList.ofList (r.result.names ++ r.parameters.flatMap fun p => p.signature.names)

end Routine

/-- **The record of a type.** -/
structure TypeRecord where
  /-- The full name, by which other records refer to the type. -/
  name : String
  /-- The kind of the type. -/
  kind : TypeKind
  /-- Whether the type is only referred to and was not scanned itself. -/
  isExternal : Bool := false
  /-- Whether a standard type is an enumeration. -/
  isEnum : Bool := false
  /-- Its modifiers, in any order. -/
  modifiers : List Modifier := []
  /-- The class it extends. -/
  superclass : Option String := none
  /-- The interfaces it implements. -/
  interfaces : List String := []
  /-- The interfaces it extends. -/
  superinterfaces : List String := []
  /-- The tags on it. -/
  tags : List TagUse := []
  /-- The attributes it declares. -/
  attributes : List Attribute := []
  /-- The routines it declares. -/
  routines : List Routine := []
  /-- Where it was loaded from. -/
  origins : List String := []
  deriving DecidableEq

namespace TypeRecord

/-- What follows the last dot of a text, and what stands before and with it. -/
def splitAtLastDot (cs : List Char) : List Char × List Char :=
  let simple := (cs.reverse.takeWhile (· ≠ '.')).reverse
  (cs.take (cs.length - simple.length), simple)

/-- **The package of the type**: its name up to and with the last dot. A dot at the
very start closes no package. -/
def package? (r : TypeRecord) : Option String :=
  let front := (splitAtLastDot r.name.toList).1
  if 1 < front.length then some (String.ofList front) else none

/-- **The simple name of the type**: what follows the last dot. -/
def simpleName (r : TypeRecord) : String := String.ofList (splitAtLastDot r.name.toList).2

/-- The types named by the attributes. -/
def attributeNames (r : TypeRecord) : List String :=
  NameList.ofList (r.attributes.flatMap fun a => a.signature.names)

/-- The types named by the routines. -/
def routineNames (r : TypeRecord) : List String :=
  NameList.ofList (r.routines.flatMap Routine.names)

/-- The tags on the attributes. -/
def attributeTags (r : TypeRecord) : List String :=
  r.attributes.flatMap fun a => a.tags.map (·.name)

/-- The tags on the routines; those on parameters do not count. -/
def routineTags (r : TypeRecord) : List String :=
  r.routines.flatMap fun routine => routine.tags.map (·.name)

/-- Whether some attribute has a tag. -/
def hasAttributeTag (r : TypeRecord) (tag : String) : Bool := tag ∈ r.attributeTags

/-- Whether some routine has a tag. -/
def hasRoutineTag (r : TypeRecord) (tag : String) : Bool := tag ∈ r.routineTags

end TypeRecord

end TypeAtlas
