/-!
# Binary floating-point numbers

A finite number is a sign, a significand and a power of two, kept exactly. A `Format`
bounds the significand and the exponent; `Binary.round` takes a ratio of natural
numbers to the nearest number of a format, a tie to the even significand. All
arithmetic goes through exact ratios, so each operation rounds once.
-/

namespace TypeAtlas

/-- **A binary format**: how many bits a significand has and where they may stand. -/
structure BinaryFormat where
  /-- The number of bits of a significand. -/
  precision : Nat
  /-- The exponent of the last bit of the smallest numbers. -/
  least : Int
  /-- The exponent of the last bit of the greatest numbers. -/
  greatest : Int

/-- The 32-bit format: 24 bits of significand. -/
def binary32 : BinaryFormat := ⟨24, -149, 104⟩

/-- The 64-bit format: 53 bits of significand. -/
def binary64 : BinaryFormat := ⟨53, -1074, 971⟩

/-- **A number of a format.** The significand and exponent that `round` gives a finite
number are those of the format: the significand has as many bits as the format
allows, unless the exponent is the least. -/
inductive Binary (format : BinaryFormat) where
  /-- The result of an operation without a value. -/
  | nan
  /-- A value beyond the greatest finite one. -/
  | infinite (negative : Bool)
  /-- The value `significand * 2 ^ exponent`, with a sign that zero has as well. -/
  | finite (negative : Bool) (significand : Nat) (exponent : Int)
  deriving DecidableEq

/-- **A positive ratio** of natural numbers, the exact value behind a rounding. -/
structure Ratio where
  /-- The numerator. -/
  num : Nat
  /-- The denominator, which callers keep positive. -/
  den : Nat

namespace Ratio

/-- The ratio `significand * 2 ^ exponent`. -/
def ofScaled (significand : Nat) (exponent : Int) : Ratio :=
  ⟨significand <<< exponent.toNat, 1 <<< (-exponent).toNat⟩

/-- The ratio `digits * 10 ^ exponent`. -/
def ofDecimal (digits : Nat) (exponent : Int) : Ratio :=
  ⟨digits * Nat.pow 10 exponent.toNat, Nat.pow 10 (-exponent).toNat⟩

/-- The product of two ratios. -/
def mul (a b : Ratio) : Ratio := ⟨a.num * b.num, a.den * b.den⟩

/-- The quotient of two ratios. -/
def div (a b : Ratio) : Ratio := ⟨a.num * b.den, a.den * b.num⟩

/-- Whether one ratio is less than another. -/
def lt (a b : Ratio) : Bool := a.num * b.den < b.num * a.den

/-- The greatest natural number that is not above the ratio. -/
def floor (a : Ratio) : Nat := a.num / a.den

/-- The exponent of the greatest power of two that is not above a positive ratio. -/
def log2 (a : Ratio) : Int :=
  let guess : Int := a.num.log2 - a.den.log2
  if a.lt (ofScaled 1 guess) then guess - 1 else guess

/-- The natural number nearest to a ratio; a half goes to the even neighbour. -/
def nearest (a : Ratio) : Nat :=
  let below := a.num / a.den
  let twice := 2 * (a.num % a.den)
  if twice < a.den then below
  else if a.den < twice then below + 1
  else if below % 2 = 0 then below else below + 1

end Ratio

namespace Binary

variable {format : BinaryFormat}

/-- Zero, with a sign. -/
def zero (negative : Bool) : Binary format := .finite negative 0 format.least

/-- **Rounding**: the number of the format nearest to a ratio, a tie to the even
significand; beyond the greatest finite number it is infinite. -/
def round (negative : Bool) (a : Ratio) : Binary format :=
  if a.num = 0 then zero negative
  else
    let exponent := max format.least (a.log2 - (format.precision - 1))
    let significand := (a.div (Ratio.ofScaled 1 exponent)).nearest
    if significand < 1 <<< format.precision then
      if exponent ≤ format.greatest then .finite negative significand exponent
      else .infinite negative
    else if exponent + 1 ≤ format.greatest then
      .finite negative (significand / 2) (exponent + 1)
    else .infinite negative

/-- The nearest number to an integer. -/
def ofInt (i : Int) : Binary format := round (i < 0) ⟨i.natAbs, 1⟩

/-- **The nearest number to a decimal** `digits * 10 ^ exponent`. A magnitude beyond
`10 ^ 400` or below `10 ^ -400` is out of the range of both formats, so it is not
worked out. -/
def ofDecimal (negative : Bool) (digits : Nat) (exponent : Int) : Binary format :=
  let magnitude := (Nat.toDigits 10 digits).length + exponent
  if digits = 0 ∨ magnitude < -400 then zero negative
  else if 400 < magnitude then .infinite negative
  else round negative (Ratio.ofDecimal digits exponent)

/-- The same value in another format, rounded to it. -/
def convert {other : BinaryFormat} : Binary format → Binary other
  | .nan => .nan
  | .infinite negative => .infinite negative
  | .finite negative significand exponent =>
    round negative (Ratio.ofScaled significand exponent)

/-- The number with the sign turned. -/
def neg : Binary format → Binary format
  | .nan => .nan
  | .infinite negative => .infinite !negative
  | .finite negative significand exponent => .finite (!negative) significand exponent

/-- Whether the value is a positive finite number. -/
def isPositive : Binary format → Bool
  | .finite negative significand _ => !negative && significand != 0
  | _ => false

end Binary

/-- The numbers of the 32-bit format. -/
abbrev Binary32 := Binary binary32

/-- The numbers of the 64-bit format. -/
abbrev Binary64 := Binary binary64

end TypeAtlas
