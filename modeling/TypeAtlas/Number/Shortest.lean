import TypeAtlas.Number.Binary

/-!
# The shortest decimal of a binary number

A finite number of a format is the rounding of a whole interval of reals. The shortest
decimal is the one with the fewest digits that lies in this interval, and of those the
nearest to the number. `shortest` tries one digit, then two, and so on; with any number
of digits the candidates are the two neighbours of the value on that decimal grid.
-/

namespace TypeAtlas

/-- **A decimal** `digits * 10 ^ exponent`. -/
structure Decimal where
  /-- The digits, read as a natural number. -/
  digits : Nat
  /-- The power of ten of the last digit. -/
  exponent : Int
  deriving DecidableEq

/-- Which neighbour is taken when both are equally near. -/
inductive Tie where
  /-- The greater one. -/
  | up
  /-- The one with the even last digit. -/
  | even
  deriving DecidableEq

namespace Decimal

/-- The exact value. -/
def ratio (d : Decimal) : Ratio := Ratio.ofDecimal d.digits d.exponent

/-- How many decimal digits a natural number has. -/
def digitCount (n : Nat) : Nat := (Nat.toDigits 10 n).length

/-- The least `k` such that a positive ratio is below `10 ^ k`. -/
def magnitude (a : Ratio) : Int :=
  if a.den ≤ a.num then digitCount a.floor
  else 1 - (digitCount ((a.den + a.num - 1) / a.num - 1) : Nat)

/-- **The reals that round to a number**: the ends of the interval, and whether they
belong to it. -/
structure Interval where
  /-- The lower end. -/
  low : Ratio
  /-- The upper end. -/
  high : Ratio
  /-- Whether the ends round to the number too. -/
  closed : Bool

/-- Whether a ratio lies in the interval. -/
def Interval.contains (i : Interval) (a : Ratio) : Bool :=
  if i.closed then !a.lt i.low && !i.high.lt a else i.low.lt a && a.lt i.high

/-- The interval of a positive number. The ends are half-way to its neighbours, and the
lower neighbour of a power of two is nearer by half. -/
def interval (format : BinaryFormat) (significand : Nat) (exponent : Int) : Interval where
  low :=
    if significand = 1 <<< (format.precision - 1) ∧ format.least < exponent then
      Ratio.ofScaled (4 * significand - 1) (exponent - 2)
    else Ratio.ofScaled (2 * significand - 1) (exponent - 1)
  high := Ratio.ofScaled (2 * significand + 1) (exponent - 1)
  closed := significand % 2 = 0

/-- The decimal with `count` digits that is nearest to a value among those in the
interval, if there is one. -/
def nearestIn (i : Interval) (tie : Tie) (value : Ratio) (size : Int) (count : Nat) :
    Option Decimal :=
  let exponent := size - count
  let scaled := value.div (Ratio.ofDecimal 1 exponent)
  let below : Decimal := ⟨scaled.floor, exponent⟩
  let above : Decimal :=
    if scaled.floor + 1 = Nat.pow 10 count then ⟨1, size⟩ else ⟨scaled.floor + 1, exponent⟩
  let twice := 2 * (scaled.num % scaled.den)
  let preferAbove : Bool :=
    scaled.den < twice ∨ (scaled.den = twice ∧ (tie = .up ∨ scaled.floor % 2 = 1))
  match i.contains below.ratio, i.contains above.ratio with
  | true, true => some (if preferAbove then above else below)
  | true, false => some below
  | false, true => some above
  | false, false => none

/-- **The shortest decimal** of the positive number `significand * 2 ^ exponent`. Nine
digits are enough for 32 bits and seventeen for 64. -/
def shortest (format : BinaryFormat) (tie : Tie) (significand : Nat) (exponent : Int) :
    Decimal :=
  let value := Ratio.ofScaled significand exponent
  let i := interval format significand exponent
  let size := magnitude value
  ((List.range' 1 17).findSome? (nearestIn i tie value size)).getD ⟨0, 0⟩

/-- **Positional notation**: the digits with a point where it belongs, and zeros up to
it where there are no digits. A whole number has no point. -/
def positional (d : Decimal) : List Char :=
  let digits := Nat.toDigits 10 d.digits
  if 0 ≤ d.exponent then digits ++ List.replicate d.exponent.toNat '0'
  else
    let places := (-d.exponent).toNat
    if places < digits.length then
      digits.take (digits.length - places) ++ '.' :: digits.drop (digits.length - places)
    else '0' :: '.' :: List.replicate (places - digits.length) '0' ++ digits

/-- **Scientific notation**: one digit, the others after a point if there are any, and
the power of ten with its sign. -/
def scientific (d : Decimal) : List Char :=
  let digits := Nat.toDigits 10 d.digits
  let exponent := d.exponent + digits.length - 1
  let sign := if exponent < 0 then '-' else '+'
  let power := sign :: Nat.toDigits 10 exponent.natAbs
  match digits with
  | first :: second :: rest => first :: '.' :: second :: rest ++ 'e' :: power
  | _ => digits ++ 'e' :: power

end Decimal

namespace Binary

variable {format : BinaryFormat}

/-- The minus sign of a negative number. -/
def signText (negative : Bool) : List Char := if negative then ['-'] else []

/-- **A number in positional notation**: the shortest digits that read back, a half in
the last one going up. Numbers that are not finite have their names. -/
def positionalText : Binary format → String
  | .nan => "NaN"
  | .infinite negative => String.ofList (signText negative ++ ['i', 'n', 'f'])
  | .finite negative 0 _ => String.ofList (signText negative ++ ['0'])
  | .finite negative significand exponent =>
    String.ofList (signText negative
      ++ (Decimal.shortest format .up significand exponent).positional)

/-- **A number as a document writes it**: the shortest digits that read back, positional
with a point when it stands at most sixteen digits to the right or five to the left of
the first digit, scientific otherwise. A document has no numbers that are not finite. -/
def documentText : Binary format → String
  | .nan => "null"
  | .infinite _ => "null"
  | .finite negative 0 _ => String.ofList (signText negative ++ ['0', '.', '0'])
  | .finite negative significand exponent =>
    let d := Decimal.shortest format .even significand exponent
    let size := d.exponent + Decimal.digitCount d.digits
    String.ofList (signText negative ++
      if 0 ≤ d.exponent ∧ size ≤ 16 then d.positional ++ ['.', '0']
      else if -5 < size ∧ size ≤ 16 then d.positional
      else d.scientific)

end Binary

end TypeAtlas
