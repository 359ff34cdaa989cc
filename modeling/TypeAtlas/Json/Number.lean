import TypeAtlas.Data
import TypeAtlas.Number.Reading

/-!
# Numbers in JSON

A number without point and power is whole and kept exactly if it fits a 64-bit word,
signed or unsigned. Any other number is read in one pass: the digits are gathered into
a significand while it fits an unsigned word, and the significand, rounded to 64 bits,
is multiplied or divided by a power of ten that is itself rounded. Two roundings may
miss the nearest number by one place, so the definition spells the steps out.
-/

namespace TypeAtlas.Json

/-- **Gathered digits**: a significand that fits a word, and how many digits of the
whole part are left out. -/
structure Gathered where
  /-- The digits gathered. -/
  significand : Nat
  /-- The power of ten of the last digit gathered. -/
  exponent : Int
  /-- Whether a digit did not fit. -/
  full : Bool

/-- One more digit of the whole part; once one does not fit, the rest only count. -/
def Gathered.addWhole (g : Gathered) (c : Char) : Gathered :=
  let next := g.significand * 10 + (c.toNat - '0'.toNat)
  if g.full ∨ UInt64.size ≤ next then { g with exponent := g.exponent + 1, full := true }
  else { g with significand := next }

/-- One more digit after the point; once one does not fit, the rest are passed over. -/
def Gathered.addPlace (g : Gathered) (c : Char) : Gathered :=
  let next := g.significand * 10 + (c.toNat - '0'.toNat)
  if g.full ∨ UInt64.size ≤ next then { g with full := true }
  else { g with significand := next, exponent := g.exponent - 1 }

/-- The digits of the whole part. -/
def gatherWhole (whole : List Char) : Gathered :=
  whole.foldl Gathered.addWhole ⟨0, 0, false⟩

/-- The digits of both parts; the places start afresh after a whole part that is too
long. -/
def gather (t : DecimalText) : Gathered :=
  t.places.foldl Gathered.addPlace { gatherWhole t.whole with full := false }

/-- The greatest power of ten that is a finite number. -/
def greatestPower : Nat := 308

/-- A power of ten, rounded. -/
def tenPower (n : Nat) : Binary64 := Binary.ofDecimal false 1 n

/-- A positive number multiplied or divided by a number, rounded once. -/
def combine (op : Ratio → Ratio → Ratio) : Binary64 → Binary64 → Binary64
  | .finite _ m e, .finite _ n f =>
    Binary.round false (op (Ratio.ofScaled m e) (Ratio.ofScaled n f))
  | other, _ => other

/-- **A significand times a power of ten.** Below the least power the number is divided
in steps until the rest of the power fits or nothing is left of the number; above the
greatest one there is no result. -/
def scale (x : Binary64) (power : Int) : Option Binary64 :=
  if _fits : power.natAbs ≤ greatestPower then
    if 0 ≤ power then
      match combine Ratio.mul x (tenPower power.toNat) with
      | .infinite _ => none
      | product => some product
    else some (combine Ratio.div x (tenPower power.natAbs))
  else if x = Binary.zero false then some x
  else if 0 ≤ power then none
  else scale (combine Ratio.div x (tenPower greatestPower)) (power + greatestPower)
termination_by power.natAbs
decreasing_by
  simp only [greatestPower] at _fits ⊢
  omega

/-- Whether a text is a number of the grammar: no zero before other digits, and digits
on both sides of a point. -/
def isNumber (t : DecimalText) : Bool :=
  (match t.whole with
    | [] => false
    | ['0'] => true
    | '0' :: _ => false
    | _ => true) && t.fraction != some []

/-- **The value of a number**, if it is in range. A whole number beyond the words and a
negative zero are not kept as whole numbers. -/
def numberValue (negative : Bool) (t : DecimalText) : Option Data :=
  let whole := gatherWhole t.whole
  let value : Int := if negative then -whole.significand else whole.significand
  let fitsWord : Bool :=
    !whole.full && (!negative || (value != 0 && Int64.minValue.toInt ≤ value))
  if t.fraction = none ∧ t.power = none ∧ fitsWord then some (.integer value)
  else
    let g := gather t
    (scale (Binary.ofInt g.significand) (g.exponent + t.exponent)).map fun x =>
      .real (if negative then x.neg else x)

end TypeAtlas.Json
