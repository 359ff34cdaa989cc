import TypeAtlas.Data.Decode
import TypeAtlas.Record.TypeRecord

/-!
# Records in documents

The layouts by which records and their parts are decoded, and the maps with every field
as which they are encoded. The layouts give the fields in the order of their
declaration, which is the order of the list shape; in a routine the parameters stand
before the result.
-/

namespace TypeAtlas

/-- A kind from its word. -/
def TypeKind.decode : Data → Decoded TypeKind := Data.asWord all word

/-- A modifier from its word. -/
def Modifier.decode : Data → Decoded Modifier := Data.asWord all word

/-- A signature from its text. -/
def Signature.decode (d : Data) : Decoded Signature := Signature.mk <$> d.asText

/-- The layout of a tag argument. -/
def TagArgument.layout : Layout TagArgument where
  title := "TagArgument"
  blank := ⟨"", ""⟩
  fields :=
    [.of "name" true Data.asText fun name a => { a with name },
     .of "value" true Data.asText fun value a => { a with value }]

/-- The layout of a tag. -/
def TagUse.layout : Layout TagUse where
  title := "TagUse"
  blank := { name := "" }
  fields :=
    [.of "name" true Data.asText fun name t => { t with name },
     .of "arguments" false (Data.asListOf TagArgument.layout.decode)
      fun arguments t => { t with arguments }]

/-- Tags on a declaration. -/
def TagUse.decodeAll : Data → Decoded (List TagUse) := Data.asListOf TagUse.layout.decode

/-- Modifiers of a declaration. -/
def Modifier.decodeAll : Data → Decoded (List Modifier) := Data.asListOf Modifier.decode

/-- The layout of an attribute. -/
def Attribute.layout : Layout Attribute where
  title := "AttributeInfo"
  blank := { name := "", signature := ⟨""⟩ }
  fields :=
    [.of "name" true Data.asText fun name a => { a with name },
     .of "type" true Signature.decode fun signature a => { a with signature },
     .of "tags" false TagUse.decodeAll fun tags a => { a with tags },
     .of "modifiers" false Modifier.decodeAll fun modifiers a => { a with modifiers }]

/-- The layout of a parameter. -/
def Parameter.layout : Layout Parameter where
  title := "ParameterInfo"
  blank := { signature := ⟨""⟩ }
  fields :=
    [.of "name" false Data.asOptionalText fun name p => { p with name },
     .of "type" true Signature.decode fun signature p => { p with signature },
     .of "tags" false TagUse.decodeAll fun tags p => { p with tags }]

/-- The layout of a routine. -/
def Routine.layout : Layout Routine where
  title := "RoutineInfo"
  blank := { name := "", result := ⟨""⟩ }
  fields :=
    [.of "name" true Data.asText fun name r => { r with name },
     .of "parameters" false (Data.asListOf Parameter.layout.decode)
      fun parameters r => { r with parameters },
     .of "result_type" true Signature.decode fun result r => { r with result },
     .of "tags" false TagUse.decodeAll fun tags r => { r with tags },
     .of "modifiers" false Modifier.decodeAll fun modifiers r => { r with modifiers }]

/-- The layout of a type record. -/
def TypeRecord.layout : Layout TypeRecord where
  title := "TypeRecord"
  blank := { name := "", kind := .standard }
  fields :=
    [.of "name" true Data.asText fun name r => { r with name },
     .of "kind" true TypeKind.decode fun kind r => { r with kind },
     .of "is_external" false Data.asTruth fun isExternal r => { r with isExternal },
     .of "is_enum" false Data.asTruth fun isEnum r => { r with isEnum },
     .of "modifiers" false Modifier.decodeAll fun modifiers r => { r with modifiers },
     .of "superclass" false Data.asOptionalText fun superclass r => { r with superclass },
     .of "interfaces" false Data.asTexts fun interfaces r => { r with interfaces },
     .of "superinterfaces" false Data.asTexts
      fun superinterfaces r => { r with superinterfaces },
     .of "tags" false TagUse.decodeAll fun tags r => { r with tags },
     .of "attributes" false (Data.asListOf Attribute.layout.decode)
      fun attributes r => { r with attributes },
     .of "routines" false (Data.asListOf Routine.layout.decode)
      fun routines r => { r with routines },
     .of "origins" false Data.asTexts fun origins r => { r with origins }]

/-! ## Encoding

An encoded record is a map with every field, `null` where there is no superclass or no
name of a parameter. -/

/-- A list of modifiers as their words. -/
def Modifier.encodeAll (modifiers : List Modifier) : Data :=
  .ofTexts (modifiers.map word)

/-- A tag argument as a map. -/
def TagArgument.encode (a : TagArgument) : Data :=
  .ofFields [("name", .text a.name), ("value", .text a.value)]

/-- A tag as a map. -/
def TagUse.encode (t : TagUse) : Data :=
  .ofFields [("name", .text t.name), ("arguments", .list (t.arguments.map (·.encode)))]

/-- A list of tags. -/
def TagUse.encodeAll (tags : List TagUse) : Data := .list (tags.map encode)

/-- An attribute as a map. -/
def Attribute.encode (a : Attribute) : Data :=
  .ofFields
    [("name", .text a.name), ("type", .text a.signature.text),
     ("tags", TagUse.encodeAll a.tags), ("modifiers", Modifier.encodeAll a.modifiers)]

/-- A parameter as a map. -/
def Parameter.encode (p : Parameter) : Data :=
  .ofFields
    [("name", .ofOption .text p.name), ("type", .text p.signature.text),
     ("tags", TagUse.encodeAll p.tags)]

/-- A routine as a map. -/
def Routine.encode (r : Routine) : Data :=
  .ofFields
    [("name", .text r.name), ("parameters", .list (r.parameters.map (·.encode))),
     ("result_type", .text r.result.text), ("tags", TagUse.encodeAll r.tags),
     ("modifiers", Modifier.encodeAll r.modifiers)]

/-- A type record as a map. -/
def TypeRecord.encode (r : TypeRecord) : Data :=
  .ofFields
    [("name", .text r.name), ("kind", .text r.kind.word),
     ("is_external", .bool r.isExternal), ("is_enum", .bool r.isEnum),
     ("modifiers", Modifier.encodeAll r.modifiers),
     ("superclass", .ofOption .text r.superclass),
     ("interfaces", .ofTexts r.interfaces),
     ("superinterfaces", .ofTexts r.superinterfaces),
     ("tags", TagUse.encodeAll r.tags),
     ("attributes", .list (r.attributes.map (·.encode))),
     ("routines", .list (r.routines.map (·.encode))),
     ("origins", .ofTexts r.origins)]

end TypeAtlas
