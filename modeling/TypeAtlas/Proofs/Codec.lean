import TypeAtlas.Proofs.Spelling
import TypeAtlas.Record.Codec

/-!
# Every spelling of a record decodes to it

The facets of a record and of its parts, as documents have them: a type reference comes
under the key `type`, a routine has its parameters before its result, and what may be
left out is false, empty or absent. Where a part is a record again, its value may be
written in any spelling of it, so the choices of shape, of fields left out and of entries
added are made at each part by itself.

That a layout reads these facets is checked part by part, from the tag arguments up to
the whole record. The encoded record is one of the spellings (`TypeRecord.spelling_encode`),
the one with all fields.
-/

namespace TypeAtlas

/-! ## The facets -/

/-- The facets of a tag argument. -/
def TagArgument.facets : List (Facet TagArgument) :=
  [.required "name" (·.name) (Only .text),
   .required "value" (·.value) (Only .text)]

/-- The facets of a tag. -/
def TagUse.facets : List (Facet TagUse) :=
  [.required "name" (·.name) (Only .text),
   .optional "arguments" (·.arguments) [] (ListOf (Spelling TagArgument.facets))]

/-- A signature is written as its text. -/
def Signature.Spells : Signature → Data → Prop := Only fun s => .text s.text

/-- The facets of an attribute. -/
def Attribute.facets : List (Facet Attribute) :=
  [.required "name" (·.name) (Only .text),
   .required "type" (·.signature) Signature.Spells,
   .optional "tags" (·.tags) [] (ListOf (Spelling TagUse.facets)),
   .optional "modifiers" (·.modifiers) [] (ListOf (Word Modifier.word))]

/-- The facets of a parameter. -/
def Parameter.facets : List (Facet Parameter) :=
  [.optional "name" (·.name) none (Only (.ofOption .text)),
   .required "type" (·.signature) Signature.Spells,
   .optional "tags" (·.tags) [] (ListOf (Spelling TagUse.facets))]

/-- The facets of a routine. -/
def Routine.facets : List (Facet Routine) :=
  [.required "name" (·.name) (Only .text),
   .optional "parameters" (·.parameters) [] (ListOf (Spelling Parameter.facets)),
   .required "result_type" (·.result) Signature.Spells,
   .optional "tags" (·.tags) [] (ListOf (Spelling TagUse.facets)),
   .optional "modifiers" (·.modifiers) [] (ListOf (Word Modifier.word))]

/-- The facets of a type record. -/
def TypeRecord.facets : List (Facet TypeRecord) :=
  [.required "name" (·.name) (Only .text),
   .required "kind" (·.kind) (Word TypeKind.word),
   .optional "is_external" (·.isExternal) false (Only .bool),
   .optional "is_enum" (·.isEnum) false (Only .bool),
   .optional "modifiers" (·.modifiers) [] (ListOf (Word Modifier.word)),
   .optional "superclass" (·.superclass) none (Only (.ofOption .text)),
   .optional "interfaces" (·.interfaces) [] (ListOf (Only .text)),
   .optional "superinterfaces" (·.superinterfaces) [] (ListOf (Only .text)),
   .optional "tags" (·.tags) [] (ListOf (Spelling TagUse.facets)),
   .optional "attributes" (·.attributes) [] (ListOf (Spelling Attribute.facets)),
   .optional "routines" (·.routines) [] (ListOf (Spelling Routine.facets)),
   .optional "origins" (·.origins) [] (ListOf (Only .text))]

/-! ### No two facets of one name -/

theorem TagArgument.nodup_facets : (facets.map (·.name)).Nodup := by decide

theorem TagUse.nodup_facets : (facets.map (·.name)).Nodup := by decide

theorem Attribute.nodup_facets : (facets.map (·.name)).Nodup := by decide

theorem Parameter.nodup_facets : (facets.map (·.name)).Nodup := by decide

theorem Routine.nodup_facets : (facets.map (·.name)).Nodup := by decide

theorem TypeRecord.nodup_facets : (facets.map (·.name)).Nodup := by decide

/-! ## The layouts read the facets -/

theorem Signature.decodes : Decodes Spells decode := by
  rintro s d rfl
  rfl

theorem TypeKind.decodes : Decodes (Word word) decode :=
  .word mem_all fun _ _ => word_injective

theorem Modifier.decodes : Decodes (ListOf (Word word)) decodeAll :=
  .listOf (.word mem_all fun _ _ => word_injective)

theorem TagArgument.reads : layout.Reads facets where
  fields :=
    .cons (.of rfl .text (fun _ _ => rfl) (by simp [facets])) <|
    .cons (.of rfl .text (fun _ _ => rfl) (by simp [facets])) .nil
  blank := by simp [facets]
  distinct := nodup_facets
  determined a b h := by
    cases a
    cases b
    simpa [facets] using h

theorem TagUse.reads : layout.Reads facets where
  fields :=
    .cons (.of rfl .text (fun _ _ => rfl) (by simp [facets])) <|
    .cons (.of rfl (.listOf TagArgument.reads.decodes) (fun _ _ => rfl) (by simp [facets])) .nil
  blank := by simp [facets, layout]
  distinct := nodup_facets
  determined a b h := by
    cases a
    cases b
    simpa [facets] using h

theorem TagUse.decodesAll : Decodes (ListOf (Spelling facets)) decodeAll :=
  .listOf reads.decodes

theorem Attribute.reads : layout.Reads facets where
  fields :=
    .cons (.of rfl .text (fun _ _ => rfl) (by simp [facets])) <|
    .cons (.of rfl Signature.decodes (fun _ _ => rfl) (by simp [facets])) <|
    .cons (.of rfl TagUse.decodesAll (fun _ _ => rfl) (by simp [facets])) <|
    .cons (.of rfl Modifier.decodes (fun _ _ => rfl) (by simp [facets])) .nil
  blank := by simp [facets, layout]
  distinct := nodup_facets
  determined a b h := by
    cases a
    cases b
    simpa [facets] using h

theorem Parameter.reads : layout.Reads facets where
  fields :=
    .cons (.of rfl .optionalText (fun _ _ => rfl) (by simp [facets])) <|
    .cons (.of rfl Signature.decodes (fun _ _ => rfl) (by simp [facets])) <|
    .cons (.of rfl TagUse.decodesAll (fun _ _ => rfl) (by simp [facets])) .nil
  blank := by simp [facets, layout]
  distinct := nodup_facets
  determined a b h := by
    cases a
    cases b
    simpa [facets] using h

theorem Routine.reads : layout.Reads facets where
  fields :=
    .cons (.of rfl .text (fun _ _ => rfl) (by simp [facets])) <|
    .cons (.of rfl (.listOf Parameter.reads.decodes) (fun _ _ => rfl) (by simp [facets])) <|
    .cons (.of rfl Signature.decodes (fun _ _ => rfl) (by simp [facets])) <|
    .cons (.of rfl TagUse.decodesAll (fun _ _ => rfl) (by simp [facets])) <|
    .cons (.of rfl Modifier.decodes (fun _ _ => rfl) (by simp [facets])) .nil
  blank := by simp [facets, layout]
  distinct := nodup_facets
  determined a b h := by
    cases a
    cases b
    simpa [facets] using h

theorem TypeRecord.reads : layout.Reads facets where
  fields :=
    .cons (.of rfl .text (fun _ _ => rfl) (by simp [facets])) <|
    .cons (.of rfl TypeKind.decodes (fun _ _ => rfl) (by simp [facets])) <|
    .cons (.of rfl .truth (fun _ _ => rfl) (by simp [facets])) <|
    .cons (.of rfl .truth (fun _ _ => rfl) (by simp [facets])) <|
    .cons (.of rfl Modifier.decodes (fun _ _ => rfl) (by simp [facets])) <|
    .cons (.of rfl .optionalText (fun _ _ => rfl) (by simp [facets])) <|
    .cons (.of rfl .texts (fun _ _ => rfl) (by simp [facets])) <|
    .cons (.of rfl .texts (fun _ _ => rfl) (by simp [facets])) <|
    .cons (.of rfl TagUse.decodesAll (fun _ _ => rfl) (by simp [facets])) <|
    .cons (.of rfl (.listOf Attribute.reads.decodes) (fun _ _ => rfl) (by simp [facets])) <|
    .cons (.of rfl (.listOf Routine.reads.decodes) (fun _ _ => rfl) (by simp [facets])) <|
    .cons (.of rfl .texts (fun _ _ => rfl) (by simp [facets])) .nil
  blank := by simp [facets, layout]
  distinct := nodup_facets
  determined a b h := by
    cases a
    cases b
    simpa [facets] using h

/-! ## The encoded record is a spelling -/

theorem TagArgument.spelling_encode (a : TagArgument) : Spelling facets a a.encode :=
  .ofFields nodup_facets <| .cons ⟨rfl, rfl⟩ <| .cons ⟨rfl, rfl⟩ .nil

theorem TagUse.spelling_encode (t : TagUse) : Spelling facets t t.encode :=
  .ofFields nodup_facets <|
    .cons ⟨rfl, rfl⟩ <|
    .cons ⟨rfl, .map TagArgument.spelling_encode _⟩ .nil

theorem TagUse.listOf_encodeAll (tags : List TagUse) :
    ListOf (Spelling facets) tags (encodeAll tags) :=
  .map spelling_encode tags

theorem Modifier.listOf_encodeAll (modifiers : List Modifier) :
    ListOf (Word word) modifiers (encodeAll modifiers) := by
  rw [encodeAll, Data.ofTexts, List.map_map]
  exact .map (fun _ => .inl rfl) modifiers

theorem Attribute.spelling_encode (a : Attribute) : Spelling facets a a.encode :=
  .ofFields nodup_facets <|
    .cons ⟨rfl, rfl⟩ <|
    .cons ⟨rfl, rfl⟩ <|
    .cons ⟨rfl, TagUse.listOf_encodeAll _⟩ <|
    .cons ⟨rfl, Modifier.listOf_encodeAll _⟩ .nil

theorem Parameter.spelling_encode (p : Parameter) : Spelling facets p p.encode :=
  .ofFields nodup_facets <|
    .cons ⟨rfl, rfl⟩ <|
    .cons ⟨rfl, rfl⟩ <|
    .cons ⟨rfl, TagUse.listOf_encodeAll _⟩ .nil

theorem Routine.spelling_encode (r : Routine) : Spelling facets r r.encode :=
  .ofFields nodup_facets <|
    .cons ⟨rfl, rfl⟩ <|
    .cons ⟨rfl, .map Parameter.spelling_encode _⟩ <|
    .cons ⟨rfl, rfl⟩ <|
    .cons ⟨rfl, TagUse.listOf_encodeAll _⟩ <|
    .cons ⟨rfl, Modifier.listOf_encodeAll _⟩ .nil

theorem TypeRecord.spelling_encode (r : TypeRecord) : Spelling facets r r.encode :=
  have texts : ∀ names : List String, ListOf (Only .text) names (.ofTexts names) :=
    ListOf.map fun _ => rfl
  .ofFields nodup_facets <|
    .cons ⟨rfl, rfl⟩ <|
    .cons ⟨rfl, .inl rfl⟩ <|
    .cons ⟨rfl, rfl⟩ <|
    .cons ⟨rfl, rfl⟩ <|
    .cons ⟨rfl, Modifier.listOf_encodeAll _⟩ <|
    .cons ⟨rfl, rfl⟩ <|
    .cons ⟨rfl, texts _⟩ <|
    .cons ⟨rfl, texts _⟩ <|
    .cons ⟨rfl, TagUse.listOf_encodeAll _⟩ <|
    .cons ⟨rfl, .map Attribute.spelling_encode _⟩ <|
    .cons ⟨rfl, .map Routine.spelling_encode _⟩ <|
    .cons ⟨rfl, texts _⟩ .nil

/-- **A record is read back from its encoding, and from every other spelling of it.** The
encoding is the spelling in which every field is given, under its name and in the first
way to write it. -/
theorem TypeRecord.decode_eq_of_spelling (r : TypeRecord) :
    layout.decode r.encode = .ok r ∧ Spelling facets r r.encode
      ∧ ∀ d, Spelling facets r d → layout.decode d = .ok r :=
  ⟨reads.decodes r _ r.spelling_encode, r.spelling_encode, reads.decodes r⟩

/-- A routine with a parameter, a tag and a modifier. -/
def swim : Routine where
  name := "swim"
  parameters := [{ signature := ⟨"int"⟩ }]
  result := ⟨"void"⟩
  tags := [{ name := "Slow", arguments := [⟨"by", "2"⟩] }]
  modifiers := [.final]

/-- The routine as a list, its parameter as a map with an entry of no meaning, its tag as
a list again and its modifier as a map. -/
def swimData : Data :=
  .list
    [.text "swim", .list [.map [("type", .text "int"), ("colour", .null)]], .text "void",
     .list [.list [.text "Slow", .list [.list [.text "by", .text "2"]]]],
     .list [.map [("final", .null)]]]

theorem spelling_swimData : Spelling Routine.facets swim swimData := by
  have hparameter : Spelling Parameter.facets swim.parameters[0]
      (.map [("type", .text "int"), ("colour", .null)]) := by
    refine .map ?_ ?_
    · simp [Parameter.facets, Facet.Writes, Signature.Spells, Only, swim]
    · simp [Parameter.facets, Facet.Omissible, swim]
  have htag : Spelling TagUse.facets swim.tags[0]
      (.list [.text "Slow", .list [.list [.text "by", .text "2"]]]) :=
    .list ⟨rfl, ⟨_, rfl, .cons (.list ⟨rfl, rfl, rfl⟩) .nil⟩, rfl⟩
  exact .list ⟨rfl, ⟨_, rfl, .cons hparameter .nil⟩, rfl, ⟨_, rfl, .cons htag .nil⟩,
    ⟨_, rfl, .cons (.inr rfl) .nil⟩, rfl⟩

theorem TypeRecord.decode_eq_of_spelling_duck :
    layout.decode (.map
      [("routines", .list [swimData]), ("weight", .integer 3),
       ("kind", .map [("standard", .null)]), ("name", .text "Duck")])
      = .ok { name := "Duck", kind := .standard, routines := [swim] } := by
  refine (decode_eq_of_spelling _).2.2 _ (.map ?_ ?_)
  · simp [facets, Facet.Writes, Only, Word, TypeKind.word, ListOf, spelling_swimData]
  · simp [facets, Facet.Omissible]

end TypeAtlas
