import TypeAtlas.Json.Number

/-!
# The tokens of JSON

A document is a sequence of tokens between which white space may stand. `Token.next?`
takes one token off the front of a text and leaves a shorter text, so `tokens` comes to
an end by the length of the text.

Texts are read by an automaton over characters: `TextState` says what the escape
sequence read so far is waiting for. A code point beyond the first plane is written as
two escapes, and neither of them stands alone.
-/

namespace TypeAtlas.Json

/-- **A token.** -/
inductive Token where
  /-- `[` -/
  | openList
  /-- `]` -/
  | closeList
  /-- The brace before the entries of a map. -/
  | openMap
  /-- The brace after the entries of a map. -/
  | closeMap
  /-- `:` -/
  | colon
  /-- `,` -/
  | comma
  /-- A value without parts. A text may also be the key of an entry. -/
  | atom (value : Data)

/-- **What a text is waiting for.** -/
inductive TextState where
  /-- Any character. -/
  | plain
  /-- The character after a backslash. -/
  | escaped
  /-- Hexadecimal digits: how many are left and what they are worth so far. Before
  them the first half of a pair may have been read. -/
  | code (high : Option Nat) (left : Nat) (value : Nat)
  /-- The backslash of the second half of a pair. -/
  | pairBackslash (high : Nat)
  /-- The `u` of the second half of a pair. -/
  | pairMark (high : Nat)

/-- The value of a hexadecimal digit. -/
def hexValue? (c : Char) : Option Nat :=
  if c.isDigit then some (c.toNat - '0'.toNat)
  else if 'a' ≤ c ∧ c ≤ 'f' then some (c.toNat - 'a'.toNat + 10)
  else if 'A' ≤ c ∧ c ≤ 'F' then some (c.toNat - 'A'.toNat + 10)
  else none

/-- The character that a letter after a backslash stands for. -/
def shortEscape? : Char → Option Char
  | '\x22' => some '\x22'
  | '\\' => some '\\'
  | '/' => some '/'
  | 'b' => some '\x08'
  | 'f' => some '\x0c'
  | 'n' => some '\n'
  | 'r' => some '\r'
  | 't' => some '\t'
  | _ => none

/-- **A finished code**: a character, or the first half of a pair, to which the second
half has to follow. Halves in any other place are refused. -/
def finishCode (high : Option Nat) (value : Nat) : Option (TextState × List Char) :=
  match high with
  | none =>
    if 0xD800 ≤ value ∧ value < 0xDC00 then some (.pairBackslash value, [])
    else if 0xDC00 ≤ value ∧ value < 0xE000 then none
    else some (.plain, [Char.ofNat value])
  | some high =>
    if 0xDC00 ≤ value ∧ value < 0xE000 then
      some (.plain, [Char.ofNat (0x10000 + (high - 0xD800) * 0x400 + (value - 0xDC00))])
    else none

/-- **One step of the automaton** on a character that does not end the text: the next
state, and the characters that the text gains. -/
def TextState.step : TextState → Char → Option (TextState × List Char)
  | plain, c =>
    if c = '\\' then some (escaped, [])
    else if c.toNat < 0x20 then none
    else some (plain, [c])
  | escaped, c =>
    if c = 'u' then some (code none 4 0, [])
    else (shortEscape? c).map fun out => (plain, [out])
  | code high left value, c =>
    match hexValue? c with
    | none => none
    | some digit =>
      if left ≤ 1 then finishCode high (value * 16 + digit)
      else some (code high (left - 1) (value * 16 + digit), [])
  | pairBackslash high, c => if c = '\\' then some (pairMark high, []) else none
  | pairMark high, c => if c = 'u' then some (code (some high) 4 0, []) else none

/-- The characters of a text up to its closing quote, and what follows the quote. -/
def readText (state : TextState) : List Char → Option (List Char × List Char)
  | [] => none
  | c :: rest =>
    match state, c with
    | .plain, '\x22' => some ([], rest)
    | _, _ =>
      match state.step c with
      | none => none
      | some (state, gained) =>
        match readText state rest with
        | none => none
        | some (text, rest) => some (gained ++ text, rest)

/-- Whether a character may stand between tokens. -/
def isSpace (c : Char) : Bool := c = ' ' || c = '\t' || c = '\n' || c = '\r'

/-- The token at the start of a text that starts with neither space nor nothing. -/
def Token.read : List Char → Option (Token × List Char)
  | '[' :: rest => some (openList, rest)
  | ']' :: rest => some (closeList, rest)
  | '\x7b' :: rest => some (openMap, rest)
  | '\x7d' :: rest => some (closeMap, rest)
  | ':' :: rest => some (colon, rest)
  | ',' :: rest => some (comma, rest)
  | '\x22' :: rest =>
    (readText .plain rest).map fun (text, rest) => (atom (.text (String.ofList text)), rest)
  | 'n' :: 'u' :: 'l' :: 'l' :: rest => some (atom .null, rest)
  | 't' :: 'r' :: 'u' :: 'e' :: rest => some (atom (.bool true), rest)
  | 'f' :: 'a' :: 'l' :: 's' :: 'e' :: rest => some (atom (.bool false), rest)
  | '-' :: rest => number true rest
  | cs => number false cs
where
  /-- A number whose sign has been read. -/
  number (negative : Bool) (cs : List Char) : Option (Token × List Char) :=
    let (t, rest) := DecimalText.scan cs
    if isNumber t then (numberValue negative t).map fun value => (atom value, rest)
    else none

theorem length_lt_of_readText {cs text rest : List Char} {state : TextState}
    (h : readText state cs = some (text, rest)) : rest.length < cs.length := by
  induction cs generalizing state text rest with
  | nil => simp [readText] at h
  | cons c cs ih =>
    unfold readText at h
    split at h
    · simp_all
    · split at h
      · cases h
      · split at h
        · cases h
        · next hread =>
          have := ih hread
          simp only [Option.some.injEq, Prod.mk.injEq] at h
          rw [← h.2]
          simp only [List.length_cons]
          omega

theorem length_lt_of_number {negative : Bool} {cs rest : List Char} {token : Token}
    (h : Token.read.number negative cs = some (token, rest)) : rest.length < cs.length := by
  unfold Token.read.number at h
  have hscan := DecimalText.length_scan cs
  dsimp only at h
  split at h
  · next hnumber =>
    obtain ⟨value, _, hpair⟩ := Option.map_eq_some_iff.1 h
    simp only [Prod.mk.injEq] at hpair
    rw [← hpair.2]
    have hwhole : (DecimalText.scan cs).1.whole ≠ [] := by
      intro hnil
      simp [isNumber, hnil] at hnumber
    have := List.length_pos_iff.2 hwhole
    omega
  · cases h

theorem length_lt_of_read {cs rest : List Char} {token : Token}
    (h : Token.read cs = some (token, rest)) : rest.length < cs.length := by
  unfold Token.read at h
  split at h
  case h_7 =>
    obtain ⟨pair, hread, hpair⟩ := Option.map_eq_some_iff.1 h
    have := length_lt_of_readText hread
    simp only [Prod.mk.injEq] at hpair
    rw [← hpair.2]
    simp only [List.length_cons]
    omega
  case h_11 =>
    have := length_lt_of_number h
    simp only [List.length_cons]
    omega
  case h_12 => exact length_lt_of_number h
  all_goals
    simp only [Option.some.injEq, Prod.mk.injEq] at h
    rw [← h.2]
    simp only [List.length_cons]
    omega

/-- **The tokens of a text**, if every part of it is a token or space. -/
def tokens (cs : List Char) : Option (List Token) :=
  match _hrest : cs.dropWhile isSpace with
  | [] => some []
  | c :: tail =>
    match _hread : Token.read (c :: tail) with
    | none => none
    | some (token, rest) => (tokens rest).map (token :: ·)
termination_by cs.length
decreasing_by
  have hread := length_lt_of_read _hread
  have hdrop : (cs.dropWhile isSpace).length ≤ cs.length :=
    (List.dropWhile_sublist isSpace).length_le
  rw [_hrest] at hdrop
  omega

end TypeAtlas.Json
