import TypeAtlas.Data.Decode
import TypeAtlas.Record.TypeRecord

/-!
# Settings

`ScanSettings` say what the scan covered, and thereby which types a listing hides. They
have to name a root type, and a text of nothing but white space names none.
`DiagramSettings` say how large a diagram is and what the labels of its nodes show.
Both decode from documents by their layouts, where every field may be missing.
-/

namespace TypeAtlas

namespace Text

/-- The ranges of the Unicode property *White_Space*, ends included. -/
def blankRanges : List (Nat × Nat) :=
  [(0x09, 0x0D), (0x20, 0x20), (0x85, 0x85), (0xA0, 0xA0), (0x1680, 0x1680),
   (0x2000, 0x200A), (0x2028, 0x2029), (0x202F, 0x202F), (0x205F, 0x205F),
   (0x3000, 0x3000)]

/-- Whether a character is white space. -/
def isBlankChar (c : Char) : Bool :=
  blankRanges.any fun range => range.1 ≤ c.toNat && c.toNat ≤ range.2

/-- **Whether a text holds white space only**; the empty text does. -/
def isBlank (s : String) : Bool := s.toList.all isBlankChar

end Text

/-- **The settings of a scan.** -/
structure ScanSettings where
  /-- Whether types that were only referred to are shown. -/
  enableExternalTypes : Bool := false
  /-- Whether attributes that are not public were scanned as well. -/
  ignoreAttributeVisibility : Bool := false
  /-- Whether routines that are not public were scanned as well. -/
  ignoreRoutineVisibility : Bool := false
  /-- The name of the type that all classes extend. It is never shown. -/
  rootType : String := "java.lang.Object"
  deriving DecidableEq

namespace ScanSettings

/-- The settings that show external types too. -/
def withExternalTypes : ScanSettings := { enableExternalTypes := true }

/-- Whether the settings name a root type, which blank text does not. -/
def isValid (s : ScanSettings) : Bool := !Text.isBlank s.rootType

/-- What is wrong with settings that name no root type. -/
def invalidMessage : String := "root_type must not be empty"

/-- The layout of scan settings. -/
def layout : Layout ScanSettings where
  title := "ScanConfig"
  blank := {}
  fields :=
    [.of "enable_external_types" false Data.asTruth
      fun enableExternalTypes s => { s with enableExternalTypes },
     .of "ignore_attribute_visibility" false Data.asTruth
      fun ignoreAttributeVisibility s => { s with ignoreAttributeVisibility },
     .of "ignore_routine_visibility" false Data.asTruth
      fun ignoreRoutineVisibility s => { s with ignoreRoutineVisibility },
     .of "root_type" false Data.asText fun rootType s => { s with rootType }]

/-- Scan settings as a map. -/
def encode (s : ScanSettings) : Data :=
  .ofFields
    [("enable_external_types", .bool s.enableExternalTypes),
     ("ignore_attribute_visibility", .bool s.ignoreAttributeVisibility),
     ("ignore_routine_visibility", .bool s.ignoreRoutineVisibility),
     ("root_type", .text s.rootType)]

end ScanSettings

/-- **The settings of a diagram.** -/
structure DiagramSettings where
  /-- The width of the canvas in inches. -/
  width : Binary32 := Binary.ofInt 10
  /-- The height of the canvas in inches. -/
  height : Binary32 := Binary.ofInt 10
  /-- Whether labels list attributes. -/
  showAttributes : Bool := true
  /-- Whether labels list routines. -/
  showRoutines : Bool := true
  deriving DecidableEq

namespace DiagramSettings

/-- The settings under which labels show neither attributes nor routines. -/
def hierarchyOnly : DiagramSettings := { showAttributes := false, showRoutines := false }

/-- What is wrong with a measure that is not a positive number. -/
def measureMessage (label : String) (value : Binary32) : String :=
  label ++ " must be a positive number, got " ++ value.positionalText

/-- **What is wrong with the settings**, if anything: both measures have to be positive
and finite, and the width is looked at first. -/
def problem? (s : DiagramSettings) : Option String :=
  if !s.width.isPositive then some (measureMessage "width" s.width)
  else if !s.height.isPositive then some (measureMessage "height" s.height)
  else none

theorem problem?_eq_none_iff (s : DiagramSettings) :
    s.problem? = none ↔ s.width.isPositive = true ∧ s.height.isPositive = true := by
  unfold problem?
  cases s.width.isPositive <;> cases s.height.isPositive <;> simp

/-- The layout of diagram settings. -/
def layout : Layout DiagramSettings where
  title := "DiagramConfig"
  blank := {}
  fields :=
    [.of "width" false Data.asBinary32 fun width s => { s with width },
     .of "height" false Data.asBinary32 fun height s => { s with height },
     .of "show_attributes" false Data.asTruth
      fun showAttributes s => { s with showAttributes },
     .of "show_routines" false Data.asTruth fun showRoutines s => { s with showRoutines }]

end DiagramSettings

end TypeAtlas
