import TypeAtlas.Json.Token

/-!
# The texts that JSON writes

A text stands between quotes. Each of its characters is written as it is, as a backslash
and a letter, as the code of the character in four hexadecimal digits, or, beyond the
first plane, as two such codes that make up a pair. `TextSpelling` says so, character by
character.

The reader is an automaton, so between two characters of a text it may stand in the
middle of an escape sequence. `Pending` says for each of its states what it has taken in
of the sequence. One step either takes in one more character of it or finishes it
(`Pending.step`), and going through the characters gives the whole text: what is read is
written so (`exists_textSpelling`). For the other direction the spelling of a character
takes the automaton from one plain state to the next (`readText_charSpelling`), so what
is written so is read (`readText_textSpelling`).
-/

namespace TypeAtlas.Json

/-! ## Spellings -/

/-- The value of hexadecimal digits, after digits worth some value. -/
def hexNumber? (value : Nat) (ds : List Char) : Option Nat :=
  ds.foldlM (fun value c => (hexValue? c).map (value * 16 + ·)) value

/-- Four hexadecimal digits and what they are worth. -/
def IsCode (ds : List Char) (n : Nat) : Prop := ds.length = 4 ∧ hexNumber? 0 ds = some n

/-- The first halves of pairs. -/
def IsHigh (n : Nat) : Prop := 0xD800 ≤ n ∧ n < 0xDC00

/-- The second halves of pairs. -/
def IsLow (n : Nat) : Prop := 0xDC00 ≤ n ∧ n < 0xE000

/-- **What one character of a text is written as.** -/
inductive CharSpelling : List Char → Char → Prop
  /-- As it is, if it is neither a quote nor a backslash nor a control character. -/
  | plain {c : Char} (hquote : c ≠ '\x22') (hbackslash : c ≠ '\\')
      (hcontrol : 0x20 ≤ c.toNat) : CharSpelling [c] c
  /-- As a backslash and a letter. -/
  | short {mark c : Char} (h : shortEscape? mark = some c) : CharSpelling ['\\', mark] c
  /-- As the code of the character. -/
  | code {ds : List Char} {n : Nat} (h : IsCode ds n) (hhigh : ¬ IsHigh n)
      (hlow : ¬ IsLow n) : CharSpelling ('\\' :: 'u' :: ds) (Char.ofNat n)
  /-- As the codes of a pair. -/
  | pair {hs ls : List Char} {high low : Nat} (hhs : IsCode hs high) (hls : IsCode ls low)
      (hhigh : IsHigh high) (hlow : IsLow low) :
      CharSpelling ('\\' :: 'u' :: hs ++ '\\' :: 'u' :: ls)
        (Char.ofNat (0x10000 + (high - 0xD800) * 0x400 + (low - 0xDC00)))

/-- **What a text is written as**, without the quotes around it. -/
inductive TextSpelling : List Char → List Char → Prop
  /-- Nothing for the empty text. -/
  | nil : TextSpelling [] []
  /-- The characters one after the other. -/
  | cons {w ws cs : List Char} {c : Char} (h : CharSpelling w c) (hs : TextSpelling ws cs) :
      TextSpelling (w ++ ws) (c :: cs)

/-! ## Steps of the automaton -/

/-- A character that does not end the text is one step of the automaton. -/
theorem readText_cons {state : TextState} {c : Char} (hend : state = .plain → c ≠ '\x22')
    (rest : List Char) :
    readText state (c :: rest) = (state.step c).bind fun next =>
      (readText next.1 rest).map fun read => (next.2 ++ read.1, read.2) := by
  rw [readText]
  · cases state.step c with
    | none => rfl
    | some next => cases h : readText next.1 rest <;> simp [h]
  · rintro rfl rfl
    exact hend rfl rfl

/-- A step that gains nothing. -/
theorem readText_cons_of_silent {state next : TextState} {c : Char}
    (hend : state = .plain → c ≠ '\x22') (h : state.step c = some (next, []))
    (rest : List Char) : readText state (c :: rest) = readText next rest := by
  rw [readText_cons hend, h]
  simp

/-- A quote ends the text. -/
@[simp] theorem readText_quote (rest : List Char) :
    readText .plain ('\x22' :: rest) = some ([], rest) := rfl

/-- One more digit. -/
theorem hexNumber?_concat {value n digit : Nat} {ds : List Char} {c : Char}
    (h : hexNumber? value ds = some n) (hc : hexValue? c = some digit) :
    hexNumber? value (ds ++ [c]) = some (n * 16 + digit) := by
  rw [hexNumber?, List.foldlM_append]
  rw [hexNumber?] at h
  simp [h, hc]

theorem finishCode_single {n : Nat} (hhigh : ¬ IsHigh n) (hlow : ¬ IsLow n) :
    finishCode none n = some (.plain, [Char.ofNat n]) :=
  (if_neg hhigh).trans (if_neg hlow)

theorem finishCode_high {n : Nat} (h : IsHigh n) :
    finishCode none n = some (.pairBackslash n, []) := if_pos h

theorem finishCode_low {high n : Nat} (h : IsLow n) :
    finishCode (some high) n = some (.plain,
      [Char.ofNat (0x10000 + (high - 0xD800) * 0x400 + (n - 0xDC00))]) := if_pos h

/-! ## What is read is written so -/

/-- **What has been taken in of an escape sequence** in a state of the automaton. -/
def Pending : TextState → List Char → Prop
  | .plain, w => w = []
  | .escaped, w => w = ['\\']
  | .code none left value, w =>
    ∃ ds, w = '\\' :: 'u' :: ds
      ∧ ds.length + left = 4 ∧ 0 < left ∧ hexNumber? 0 ds = some value
  | .pairBackslash high, w => ∃ hs, w = '\\' :: 'u' :: hs ∧ IsCode hs high ∧ IsHigh high
  | .pairMark high, w =>
    ∃ hs, w = '\\' :: 'u' :: hs ++ ['\\'] ∧ IsCode hs high ∧ IsHigh high
  | .code (some high) left value, w =>
    ∃ hs ds, w = '\\' :: 'u' :: hs ++ '\\' :: 'u' :: ds ∧ IsCode hs high ∧ IsHigh high
      ∧ ds.length + left = 4 ∧ 0 < left ∧ hexNumber? 0 ds = some value

theorem pending_plain : Pending .plain [] := rfl

/-- **What a step may come to** after a sequence: one more character of it is taken in,
or it is finished. -/
def Advances (w : List Char) (next : TextState) (gained : List Char) : Prop :=
  (gained = [] ∧ Pending next w)
    ∨ ∃ d, gained = [d] ∧ next = .plain ∧ CharSpelling w d

/-- The digits of a code advance one by one, and the last one finishes it. -/
theorem Advances.code {high : Option Nat} {left value : Nat} {next : TextState}
    {gained w ds : List Char} {c : Char}
    (hstep : (TextState.code high left value).step c = some (next, gained))
    (hlength : ds.length + left = 4) (hleft : 0 < left) (hvalue : hexNumber? 0 ds = some value)
    (hmore : ∀ n, 1 < left → (ds ++ [c]).length + (left - 1) = 4 →
      hexNumber? 0 (ds ++ [c]) = some n → Pending (.code high (left - 1) n) w)
    (hlast : ∀ n, IsCode (ds ++ [c]) n → finishCode high n = some (next, gained) →
      Advances w next gained) :
    Advances w next gained := by
  simp only [TextState.step] at hstep
  cases hdigit : hexValue? c with
  | none =>
    rw [hdigit] at hstep
    cases hstep
  | some digit =>
    rw [hdigit] at hstep
    have hnumber := hexNumber?_concat hvalue hdigit
    have hconcat : (ds ++ [c]).length = ds.length + 1 := by simp
    dsimp only at hstep
    split at hstep
    · exact hlast _ ⟨by omega, hnumber⟩ hstep
    · obtain ⟨rfl, rfl⟩ := Prod.mk.inj (Option.some.inj hstep)
      exact .inl ⟨rfl, hmore _ (by omega) (by omega) hnumber⟩

/-- **One step of the automaton** takes in one more character of an escape sequence, or
the last one of it. -/
theorem Pending.step {state next : TextState} {w gained : List Char} {c : Char}
    (h : Pending state w) (hend : state = .plain → c ≠ '\x22')
    (hstep : state.step c = some (next, gained)) : Advances (w ++ [c]) next gained := by
  match state, h with
  | .plain, h =>
    obtain rfl : w = [] := h
    simp only [TextState.step] at hstep
    split at hstep
    · next hc =>
      obtain ⟨rfl, rfl⟩ := Prod.mk.inj (Option.some.inj hstep)
      exact .inl ⟨rfl, by rw [hc]; rfl⟩
    · next hbackslash =>
      split at hstep
      · cases hstep
      · next hcontrol =>
        obtain ⟨rfl, rfl⟩ := Prod.mk.inj (Option.some.inj hstep)
        exact .inr ⟨c, rfl, rfl, .plain (hend rfl) hbackslash (Nat.le_of_not_lt hcontrol)⟩
  | .escaped, h =>
    obtain rfl : w = ['\\'] := h
    simp only [TextState.step] at hstep
    split at hstep
    · next hc =>
      obtain ⟨rfl, rfl⟩ := Prod.mk.inj (Option.some.inj hstep)
      exact .inl ⟨rfl, [], by rw [hc]; rfl, rfl, by decide, rfl⟩
    · obtain ⟨d, hshort, heq⟩ := Option.map_eq_some_iff.1 hstep
      obtain ⟨rfl, rfl⟩ := Prod.mk.inj heq
      exact .inr ⟨d, rfl, rfl, .short hshort⟩
  | .pairBackslash high, h =>
    obtain ⟨hs, rfl, hcode, hhigh⟩ := h
    simp only [TextState.step] at hstep
    split at hstep
    · next hc =>
      obtain ⟨rfl, rfl⟩ := Prod.mk.inj (Option.some.inj hstep)
      exact .inl ⟨rfl, hs, by rw [hc], hcode, hhigh⟩
    · cases hstep
  | .pairMark high, h =>
    obtain ⟨hs, rfl, hcode, hhigh⟩ := h
    simp only [TextState.step] at hstep
    split at hstep
    · next hc =>
      obtain ⟨rfl, rfl⟩ := Prod.mk.inj (Option.some.inj hstep)
      exact .inl ⟨rfl, hs, [], by simp [hc], hcode, hhigh, rfl, by decide, rfl⟩
    · cases hstep
  | .code none left value, h =>
    obtain ⟨ds, rfl, hlength, hleft, hvalue⟩ := h
    refine Advances.code hstep hlength hleft hvalue
      (fun n hmore hlength hnumber => ⟨_, rfl, hlength, by omega, hnumber⟩)
      (fun n hcode hfinish => ?_)
    -- a single code is a character, unless it begins a pair
    simp only [finishCode] at hfinish
    split at hfinish
    · next hhigh =>
      obtain ⟨rfl, rfl⟩ := Prod.mk.inj (Option.some.inj hfinish)
      exact .inl ⟨rfl, _, rfl, hcode, hhigh⟩
    · next hhigh =>
      split at hfinish
      · cases hfinish
      · next hlow =>
        obtain ⟨rfl, rfl⟩ := Prod.mk.inj (Option.some.inj hfinish)
        exact .inr ⟨_, rfl, rfl, .code hcode hhigh hlow⟩
  | .code (some high) left value, h =>
    obtain ⟨hs, ds, rfl, hhs, hhigh, hlength, hleft, hvalue⟩ := h
    refine Advances.code hstep hlength hleft hvalue
      (fun n hmore hlength hnumber =>
        ⟨hs, _, by simp, hhs, hhigh, hlength, by omega, hnumber⟩)
      (fun n hcode hfinish => ?_)
    simp only [finishCode] at hfinish
    split at hfinish
    · next hlow =>
      obtain ⟨rfl, rfl⟩ := Prod.mk.inj (Option.some.inj hfinish)
      refine .inr ⟨_, rfl, rfl, ?_⟩
      simpa using CharSpelling.pair hhs hcode hhigh hlow
    · cases hfinish

/-- What is read in the middle of an escape sequence finishes the sequence. -/
theorem exists_spelling_of_pending {state : TextState} {w taken text rest : List Char}
    (hpending : Pending state w) (h : readText state taken = some (text, rest)) :
    ∃ ws, taken = ws ++ '\x22' :: rest ∧ TextSpelling (w ++ ws) text := by
  induction taken generalizing state w text with
  | nil => simp [readText] at h
  | cons c taken ih =>
    by_cases hend : state = .plain ∧ c = '\x22'
    · obtain ⟨rfl, rfl⟩ := hend
      obtain rfl : w = [] := hpending
      obtain ⟨rfl, rfl⟩ := Prod.mk.inj (Option.some.inj (readText_quote taken ▸ h))
      exact ⟨[], rfl, .nil⟩
    · rw [readText_cons fun hplain hquote => hend ⟨hplain, hquote⟩] at h
      obtain ⟨⟨next, gained⟩, hstep, hread⟩ := Option.bind_eq_some_iff.1 h
      obtain ⟨⟨more, rest'⟩, hmore, heq⟩ := Option.map_eq_some_iff.1 hread
      obtain ⟨rfl, rfl⟩ := Prod.mk.inj heq
      rcases hpending.step (fun hplain hquote => hend ⟨hplain, hquote⟩) hstep with
        ⟨rfl, hnext⟩ | ⟨d, rfl, rfl, hspelling⟩
      · obtain ⟨ws, htaken, hws⟩ := ih hnext hmore
        exact ⟨c :: ws, by rw [htaken]; rfl, by simpa using hws⟩
      · obtain ⟨ws, htaken, hws⟩ := ih pending_plain hmore
        refine ⟨c :: ws, by rw [htaken]; rfl, ?_⟩
        simpa using TextSpelling.cons hspelling hws

/-- **A text that is read is written as its spelling and a quote.** -/
theorem exists_textSpelling {taken text rest : List Char}
    (h : readText .plain taken = some (text, rest)) :
    ∃ ws, taken = ws ++ '\x22' :: rest ∧ TextSpelling ws text :=
  exists_spelling_of_pending pending_plain h

/-! ## What is written so is read -/

/-- **The digits of a code are read** up to the last one, which finishes the code. -/
theorem readText_code {ds : List Char} {value n : Nat} (hne : ds ≠ [])
    (h : hexNumber? value ds = some n) (high : Option Nat) (rest : List Char) :
    readText (.code high ds.length value) (ds ++ rest) = (finishCode high n).bind fun next =>
      (readText next.1 rest).map fun read => (next.2 ++ read.1, read.2) := by
  induction ds generalizing value with
  | nil => exact absurd rfl hne
  | cons d ds ih =>
    obtain ⟨worth, hworth, htail⟩ := Option.bind_eq_some_iff.1 h
    obtain ⟨digit, hdigit, rfl⟩ := Option.map_eq_some_iff.1 hworth
    rw [List.cons_append, readText_cons (by simp)]
    simp only [TextState.step, hdigit]
    cases ds with
    | nil =>
      obtain rfl : value * 16 + digit = n := Option.some.inj htail
      rw [if_pos (by simp)]
      rfl
    | cons d' ds =>
      rw [if_neg (by simp), Option.bind_some]
      simpa using ih nofun htail

/-- A backslash and a `u` start a code. -/
theorem readText_startCode {ds : List Char} {n : Nat} (h : IsCode ds n) (rest : List Char) :
    readText .plain ('\\' :: 'u' :: ds ++ rest) = (finishCode none n).bind fun next =>
      (readText next.1 rest).map fun read => (next.2 ++ read.1, read.2) := by
  have hne : ds ≠ [] := List.ne_nil_of_length_pos (by simp [h.1])
  rw [List.cons_append, readText_cons_of_silent (by simp) rfl, List.cons_append,
    readText_cons_of_silent (by simp) rfl, ← h.1, readText_code hne h.2]

/-- After the first half of a pair, a backslash and a `u` start the second one. -/
theorem readText_pairCode {ds : List Char} {n : Nat} (h : IsCode ds n) (high : Nat)
    (rest : List Char) :
    readText (.pairBackslash high) ('\\' :: 'u' :: ds ++ rest) =
      (finishCode (some high) n).bind fun next =>
        (readText next.1 rest).map fun read => (next.2 ++ read.1, read.2) := by
  have hne : ds ≠ [] := List.ne_nil_of_length_pos (by simp [h.1])
  rw [List.cons_append, readText_cons_of_silent (by simp) rfl, List.cons_append,
    readText_cons_of_silent (by simp) rfl, ← h.1, readText_code hne h.2]

/-- **The spelling of a character is read** as the character. -/
theorem readText_charSpelling {w : List Char} {c : Char} (h : CharSpelling w c)
    (rest : List Char) :
    readText .plain (w ++ rest) =
      (readText .plain rest).map fun read => (c :: read.1, read.2) := by
  cases h with
  | plain hquote hbackslash hcontrol =>
    rw [List.cons_append, readText_cons fun _ => hquote]
    simp [TextState.step, hbackslash, Nat.not_lt.2 hcontrol]
  | @short mark _ hshort =>
    have hmark : mark ≠ 'u' := by rintro rfl; cases hshort
    rw [List.cons_append, readText_cons_of_silent (by simp) rfl, List.cons_append,
      readText_cons (by simp)]
    simp [TextState.step, hmark, hshort]
  | code hcode hhigh hlow =>
    rw [readText_startCode hcode, finishCode_single hhigh hlow]
    simp
  | @pair hs ls high low hhs hls hhigh hlow =>
    rw [List.append_assoc, readText_startCode hhs, finishCode_high hhigh, Option.bind_some,
      readText_pairCode hls, finishCode_low hlow]
    simp [Function.comp_def]

/-- **What is written as a text and a quote is read.** -/
theorem readText_textSpelling {ws text : List Char} (h : TextSpelling ws text)
    (rest : List Char) :
    readText .plain (ws ++ '\x22' :: rest) = some (text, rest) := by
  induction h with
  | nil => rfl
  | cons hchar _ ih => rw [List.append_assoc, readText_charSpelling hchar, ih]; rfl

end TypeAtlas.Json
