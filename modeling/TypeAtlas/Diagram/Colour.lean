import TypeAtlas.Data.Decode

/-!
# Colours

A colour has three channels from 0 to 255. Darkening multiplies each channel by a
factor in 32-bit arithmetic, keeps the product between 0 and 255, and drops what is
behind the point; a product without a value counts as 0.
-/

namespace TypeAtlas

/-- **A colour.** -/
structure Colour where
  /-- The red channel. -/
  red : UInt8
  /-- The green channel. -/
  green : UInt8
  /-- The blue channel. -/
  blue : UInt8
  deriving DecidableEq

namespace Colour

/-- A channel in two hexadecimal digits. -/
def channelText (c : UInt8) : List Char :=
  [Nat.digitChar (c.toNat / 16), Nat.digitChar (c.toNat % 16)]

/-- **How a colour is written**: a number sign and two digits per channel. -/
def text (c : Colour) : String :=
  String.ofList ('#' :: channelText c.red ++ channelText c.green ++ channelText c.blue)

/-- A natural number, or 255 if it is greater. -/
def clampChannel (n : Nat) : UInt8 := UInt8.ofNat (min n 255)

/-- **A channel times a factor**, rounded to 32 bits before the places are dropped. -/
def darkenChannel (factor : Binary32) (c : UInt8) : UInt8 :=
  match factor with
  | .nan => 0
  | .infinite negative => if negative ∨ c = 0 then 0 else 255
  | .finite negative significand exponent =>
    match (Binary.round false (Ratio.ofScaled (c.toNat * significand) exponent) : Binary32) with
    | .finite _ m e => if negative then 0 else clampChannel (Ratio.ofScaled m e).floor
    | _ => if negative then 0 else 255

/-- Every channel times a factor. -/
def darken (c : Colour) (factor : Binary32) : Colour :=
  ⟨darkenChannel factor c.red, darkenChannel factor c.green, darkenChannel factor c.blue⟩

/-- A colour from a list of its three channels. -/
def decode : Data → Decoded Colour
  | .list (red :: green :: blue :: rest) => do
    let c : Colour := ⟨← red.asOctet, ← green.asOctet, ← blue.asOctet⟩
    if rest = [] then .ok c else .error (.goesOn (3 + rest.length))
  | .list items => do
    let _ ← items.mapM Data.asOctet
    .error (.endsBeforeThird items.length)
  | other => .error (.wrongSort other .triple)

end Colour

end TypeAtlas
