import TypeAtlas.Number.Binary

/-!
# Decimal text

A decimal number is written as an optional sign, digits with an optional point, and an
optional power of ten. `Decimal.scan` splits such a text; `Binary.ofText?` reads a
number of a format from a whole text, names of the numbers that are not finite
included. Only the ASCII digits are digits.
-/

namespace TypeAtlas

/-- **The parts of a decimal text**, without its sign. -/
structure DecimalText where
  /-- The digits before the point. -/
  whole : List Char
  /-- The digits after the point, if there is a point. -/
  fraction : Option (List Char)
  /-- The sign and digits of the power of ten, if there is one. -/
  power : Option (Bool × List Char)

namespace DecimalText

/-- The leading digits of a text, and the rest. -/
def spanDigits (cs : List Char) : List Char × List Char :=
  (cs.takeWhile Char.isDigit, cs.dropWhile Char.isDigit)

/-- An optional sign: whether it is a minus sign, and the rest. -/
def spanSign : List Char → Bool × List Char
  | '+' :: rest => (false, rest)
  | '-' :: rest => (true, rest)
  | cs => (false, cs)

/-- The part of a number that starts at its power of ten, if it has one. The mark is
consumed only if digits follow. -/
def spanPower (cs : List Char) : Option (Bool × List Char) × List Char :=
  match cs with
  | mark :: rest =>
    if mark = 'e' ∨ mark = 'E' then
      let (negative, rest) := spanSign rest
      match spanDigits rest with
      | ([], _) => (none, cs)
      | (digits, rest) => (some (negative, digits), rest)
    else (none, cs)
  | [] => (none, cs)

/-- **The longest decimal** at the start of a text, and the rest. A point belongs to it
whether or not digits stand on either side. -/
def scan (cs : List Char) : DecimalText × List Char :=
  let (whole, rest) := spanDigits cs
  match rest with
  | '.' :: rest =>
    let (fraction, rest) := spanDigits rest
    let (power, rest) := spanPower rest
    (⟨whole, some fraction, power⟩, rest)
  | _ =>
    let (power, rest) := spanPower rest
    (⟨whole, none, power⟩, rest)

theorem length_spanDigits (cs : List Char) :
    (spanDigits cs).1.length + (spanDigits cs).2.length = cs.length := by
  rw [← List.length_append]
  exact congrArg List.length (List.takeWhile_append_dropWhile)

theorem length_spanSign_le (cs : List Char) : (spanSign cs).2.length ≤ cs.length := by
  unfold spanSign
  split <;> simp

theorem length_spanPower_le (cs : List Char) : (spanPower cs).2.length ≤ cs.length := by
  unfold spanPower
  split
  · next mark rest =>
    split
    · have hsign := length_spanSign_le rest
      have hdigits := length_spanDigits (spanSign rest).2
      dsimp only
      split
      · simp_all
      · simp_all
        omega
    · simp
  · simp

/-- What follows a decimal is shorter than the text by its digits before the point. -/
theorem length_scan (cs : List Char) :
    (scan cs).1.whole.length + (scan cs).2.length ≤ cs.length := by
  have hwhole := length_spanDigits cs
  unfold scan
  dsimp only
  split
  · next rest hrest =>
    have hplaces := length_spanDigits rest
    have hpower := length_spanPower_le (spanDigits rest).2
    simp only [hrest, List.length_cons] at hwhole
    dsimp only
    omega
  · have hpower := length_spanPower_le (spanDigits cs).2
    dsimp only
    omega

/-- The digits after the point, none if there is no point. -/
def places (t : DecimalText) : List Char := t.fraction.getD []

/-- The power of ten, zero if none is written. -/
def exponent (t : DecimalText) : Int :=
  match t.power with
  | none => 0
  | some (negative, digits) =>
    let power := Nat.ofDigitChars 10 digits 0
    if negative then -power else power

/-- The nearest number of a format. -/
def toBinary (format : BinaryFormat) (negative : Bool) (t : DecimalText) : Binary format :=
  Binary.ofDecimal negative (Nat.ofDigitChars 10 (t.whole ++ t.places) 0)
    (t.exponent - t.places.length)

end DecimalText

/-- The value of a name of a number that is not finite, whatever the case of its
letters. -/
def Binary.named? {format : BinaryFormat} (negative : Bool) (cs : List Char) :
    Option (Binary format) :=
  let name := String.ofList (cs.map Char.toLower)
  if name = "inf" ∨ name = "infinity" then some (.infinite negative)
  else if name = "nan" then some .nan
  else none

/-- **A number read from a text**: an optional sign, then a decimal with a digit before
or after its point, or a name. Nothing else may follow. -/
def Binary.ofText? {format : BinaryFormat} (s : String) : Option (Binary format) :=
  let (negative, cs) := DecimalText.spanSign s.toList
  match DecimalText.scan cs with
  | (t, []) =>
    if t.whole = [] ∧ t.places = [] then none
    else some (t.toBinary format negative)
  | _ => named? negative cs

end TypeAtlas
