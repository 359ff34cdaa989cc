import TypeAtlas.Data
import TypeAtlas.Number.Reading
import TypeAtlas.Toml.Scan

/-!
# Numbers, dates and truth values in TOML

Digits may be grouped by single underscores. A whole number fits 64 bits with a sign
and may be written with base 16, 8 or 2; a number with a point or a power of ten is
rounded to the nearest 64-bit number, and is refused if that is infinite and positive.
A date, a time or both together is kept as its text, under the only key of a map.
-/

namespace TypeAtlas.Toml

open Scan

/-- Digits with single underscores between them; the underscores are dropped. -/
def grouped (isDigit : Char → Bool) : Scan (List Char) := do
  let first ← one isDigit
  let rest ← repeated do
    match ← peek? with
    | some '_' => do
      let _ ← next
      return some (← one isDigit)
    | _ => optional (one isDigit)
  return first :: rest

/-- A whole number in a base whose digits are given. -/
def inBase (mark : Char) (isDigit : Char → Bool) (base : Nat) : Scan Data := do
  exactly ['0', mark]
  let digits ← grouped isDigit
  let value := digits.foldl
    (fun n c => n * base + (if c.isDigit then c.toNat - '0'.toNat
      else c.toLower.toNat - 'a'.toNat + 10)) 0
  if value ≤ Int64.maxValue.toInt then return .integer value else failure

/-- Whether a character is a hexadecimal digit. -/
def isHexDigit (c : Char) : Bool :=
  c.isDigit || ('a' ≤ c && c ≤ 'f') || ('A' ≤ c && c ≤ 'F')

/-- The power of ten of a number, if one follows: its sign and digits. -/
def power? : Scan (Option (Bool × List Char)) := do
  match ← optional (one fun c => c = 'e' || c = 'E') with
  | none => return none
  | some _ =>
    let sign ← optional (one fun c => c = '+' || c = '-')
    return some (sign = some '-', ← grouped Char.isDigit)

/-- A number that is not finite, after its sign. -/
def namedNumber (negative : Bool) : Scan Data := do
  if ← startsWith ['i', 'n', 'f'] then
    exactly ['i', 'n', 'f']
    return .real (.infinite negative)
  else
    exactly ['n', 'a', 'n']
    return .real .nan

/-- A decimal number after its sign. Only a lone zero starts with a zero. -/
def decimalNumber (negative : Bool) : Scan Data := do
  let whole ← if (← peek?) = some '0' then List.singleton <$> next else grouped Char.isDigit
  let fraction ←
    if (← peek?) = some '.' then
      let _ ← next
      some <$> grouped Char.isDigit
    else pure none
  let power ← power?
  if fraction.isNone && power.isNone then
    let magnitude := Nat.ofDigitChars 10 whole 0
    let value : Int := if negative then -magnitude else magnitude
    if Int64.minValue.toInt ≤ value ∧ value ≤ Int64.maxValue.toInt then return .integer value
    else failure
  else
    let x : Binary64 := DecimalText.toBinary binary64 negative ⟨whole, fraction, power⟩
    if x = .infinite false then failure else return .real x

/-- **A number.** -/
def numberValue : Scan Data := do
  match ← optional (one fun c => c = '+' || c = '-') with
  | some sign => afterSign (sign = '-')
  | none =>
    if ← startsWith ['0', 'x'] then inBase 'x' isHexDigit 16
    else if ← startsWith ['0', 'o'] then inBase 'o' (fun c => '0' ≤ c && c ≤ '7') 8
    else if ← startsWith ['0', 'b'] then inBase 'b' (fun c => c = '0' || c = '1') 2
    else afterSign false
where
  /-- A number without its sign. -/
  afterSign (negative : Bool) : Scan Data := do
    match ← peek? with
    | some 'i' => namedNumber negative
    | some 'n' => namedNumber negative
    | _ => decimalNumber negative

/-! ## Dates and times -/

/-- A number of so many digits within bounds. -/
def digitsWithin (count low high : Nat) : Scan Nat := do
  let digits ← (List.replicate count ()).mapM fun _ => one Char.isDigit
  let value := Nat.ofDigitChars 10 digits 0
  if low ≤ value ∧ value ≤ high then return value else failure

/-- How many days a month has. -/
def daysIn (year month : Nat) : Nat :=
  if month = 2 then
    if year % 4 = 0 ∧ (year % 100 ≠ 0 ∨ year % 400 = 0) then 29 else 28
  else if month ∈ [4, 6, 9, 11] then 30
  else 31

/-- A date: year, month and day. -/
def date : Scan Unit := do
  let year ← digitsWithin 4 0 9999
  exactly ['-']
  let month ← digitsWithin 2 1 12
  exactly ['-']
  let _ ← digitsWithin 2 1 (daysIn year month)

/-- A time: hour, minute, second, and perhaps a part of a second. The last minute of a
day may have a sixty-first second. -/
def time : Scan Unit := do
  let _ ← digitsWithin 2 0 23
  exactly [':']
  let _ ← digitsWithin 2 0 59
  exactly [':']
  let _ ← digitsWithin 2 0 60
  let _ ← optional do
    exactly ['.']
    let _ ← one Char.isDigit
    spanWhile Char.isDigit

/-- The distance of a time from the universal one. -/
def offset : Scan Unit := do
  match ← next with
  | 'Z' => return
  | 'z' => return
  | '+' => hourMinute
  | '-' => hourMinute
  | _ => failure
where
  /-- Hours and minutes. -/
  hourMinute : Scan Unit := do
    let _ ← digitsWithin 2 0 23
    exactly [':']
    let _ ← digitsWithin 2 0 59

/-- **A date, a time, or both**, as a map with the text under its only key. -/
def moment : Scan Data := fun cs =>
  match dateAndTime cs, time cs with
  | some ((), rest), _ => some (asData cs rest, rest)
  | none, some ((), rest) => some (asData cs rest, rest)
  | none, none => none
where
  /-- A date that a time may follow. -/
  dateAndTime : Scan Unit := do
    date
    let _ ← optional do
      let _ ← one fun c => c = 'T' || c = 't' || c = ' '
      time
      optional offset
  /-- The text that is taken off. -/
  asData (cs rest : List Char) : Data :=
    .ofFields [("date-time", .text (String.ofList (cs.take (cs.length - rest.length))))]

end TypeAtlas.Toml
