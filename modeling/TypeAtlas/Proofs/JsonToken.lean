import Mathlib.Data.List.Chain
import Mathlib.Data.List.TakeWhile
import TypeAtlas.Proofs.JsonText

/-!
# The spelling of tokens

A token is a mark, a name, a number or a text. `TokenSpelling` says which characters it is
written as, and `Lexes` that a text is the spellings of tokens with white space around
them.

What `tokens` finds in a text is written there (`lexes_of_tokens`). The converse needs a
condition: digits after digits are one number, so two tokens that carry a value must not
stand side by side. In a document they never do, since a mark stands between any two
values, and under this condition the tokens are found (`tokens_of_lexes`).
-/

namespace TypeAtlas.Json

open DecimalText

/-! ## Numbers -/

/-- A number of digits, at least one. -/
def IsDigits (ds : List Char) : Prop := ds ≠ [] ∧ ∀ c ∈ ds, c.isDigit = true

/-- **What stands before the point**: digits, of which the first one is zero only if it is
the only one. -/
def IsWhole (ds : List Char) : Prop := IsDigits ds ∧ (ds.head? = some '0' → ds = ['0'])

/-- **What the digits after the point are written as**, if there are any. -/
inductive FractionSpelling : List Char → Option (List Char) → Prop
  /-- There is no point. -/
  | absent : FractionSpelling [] none
  /-- The point and the digits. -/
  | present {ds : List Char} (h : IsDigits ds) : FractionSpelling ('.' :: ds) (some ds)

/-- **What the sign of a power is written as**: whether it is a minus sign. -/
inductive SignSpelling : List Char → Bool → Prop
  /-- There is no sign. -/
  | absent : SignSpelling [] false
  /-- A plus sign. -/
  | plus : SignSpelling ['+'] false
  /-- A minus sign. -/
  | minus : SignSpelling ['-'] true

/-- **What a power of ten is written as**, if there is one. -/
inductive PowerSpelling : List Char → Option (Bool × List Char) → Prop
  /-- There is no power. -/
  | absent : PowerSpelling [] none
  /-- The mark, the sign and the digits. -/
  | present {mark : Char} {sign ds : List Char} {negative : Bool}
      (hmark : mark = 'e' ∨ mark = 'E') (hsign : SignSpelling sign negative) (h : IsDigits ds) :
      PowerSpelling (mark :: sign ++ ds) (some (negative, ds))

/-- **What a number is written as**, without its sign. -/
inductive NumberSpelling : List Char → DecimalText → Prop
  /-- Its parts one after the other. -/
  | mk {whole fw pw : List Char} {fraction : Option (List Char)}
      {power : Option (Bool × List Char)} (hwhole : IsWhole whole)
      (hfraction : FractionSpelling fw fraction) (hpower : PowerSpelling pw power) :
      NumberSpelling (whole ++ (fw ++ pw)) ⟨whole, fraction, power⟩

/-- Whether a number may go on with a character. -/
def goesOn (c : Char) : Bool := c.isDigit || c = '.' || c = 'e' || c = 'E'

/-- **What a number may stand before.** -/
def Stops (rest : List Char) : Prop := ∀ c, rest.head? = some c → goesOn c = false

theorem Stops.not_isDigit {rest : List Char} (h : Stops rest) {c : Char}
    (hc : rest.head? = some c) : c.isDigit = false := by
  have hstop := h c hc
  simp only [goesOn, Bool.or_eq_false_iff] at hstop
  exact hstop.1.1.1

theorem spanDigits_sound {cs ds rest : List Char} (h : spanDigits cs = (ds, rest)) :
    cs = ds ++ rest ∧ ∀ c ∈ ds, c.isDigit = true := by
  obtain ⟨rfl, rfl⟩ := Prod.mk.inj h
  exact ⟨List.takeWhile_append_dropWhile.symm, fun _ => List.mem_takeWhile_imp⟩

/-- **Digits are spanned** up to a character that is none. -/
theorem spanDigits_append {ds rest : List Char} (h : ∀ c ∈ ds, c.isDigit = true)
    (hrest : ∀ c, rest.head? = some c → c.isDigit = false) :
    spanDigits (ds ++ rest) = (ds, rest) := by
  unfold spanDigits
  rw [List.takeWhile_append_of_pos h, List.dropWhile_append_of_pos h]
  cases rest with
  | nil => simp
  | cons c rest => simp [hrest c rfl]

theorem spanSign_sound {cs rest : List Char} {negative : Bool}
    (h : spanSign cs = (negative, rest)) : ∃ w, cs = w ++ rest ∧ SignSpelling w negative := by
  unfold spanSign at h
  split at h <;> obtain ⟨rfl, rfl⟩ := Prod.mk.inj h
  · exact ⟨['+'], rfl, .plus⟩
  · exact ⟨['-'], rfl, .minus⟩
  · exact ⟨[], rfl, .absent⟩

theorem spanSign_append {w ds rest : List Char} {negative : Bool} (h : SignSpelling w negative)
    (hds : IsDigits ds) : spanSign (w ++ (ds ++ rest)) = (negative, ds ++ rest) := by
  cases h with
  | plus | minus => rfl
  | absent =>
    obtain ⟨d, ds, rfl⟩ := List.exists_cons_of_ne_nil hds.1
    have hdigit : d.isDigit = true := hds.2 d List.mem_cons_self
    rw [List.nil_append, List.cons_append, spanSign]
    · rintro _ ⟨rfl, -⟩
      exact absurd hdigit (by decide)
    · rintro _ ⟨rfl, -⟩
      exact absurd hdigit (by decide)

theorem spanPower_sound {cs rest : List Char} {power : Option (Bool × List Char)}
    (h : spanPower cs = (power, rest)) : ∃ w, cs = w ++ rest ∧ PowerSpelling w power := by
  unfold spanPower at h
  split at h
  · next mark tail =>
    split at h
    · next hmark =>
      rcases htail : spanSign tail with ⟨negative, signed⟩
      obtain ⟨sign, hsigned, hsign⟩ := spanSign_sound htail
      rw [htail] at h
      dsimp only at h
      split at h
      · obtain ⟨rfl, rfl⟩ := Prod.mk.inj h
        exact ⟨[], rfl, .absent⟩
      · next ds more hne hspan =>
        obtain ⟨rfl, rfl⟩ := Prod.mk.inj h
        obtain ⟨hdigits, hall⟩ := spanDigits_sound hspan
        refine ⟨mark :: sign ++ ds, ?_, .present hmark hsign ⟨hne, hall⟩⟩
        rw [hsigned, hdigits]
        simp
    · obtain ⟨rfl, rfl⟩ := Prod.mk.inj h
      exact ⟨[], rfl, .absent⟩
  · obtain ⟨rfl, rfl⟩ := Prod.mk.inj h
    exact ⟨[], rfl, .absent⟩

theorem spanPower_append {w rest : List Char} {power : Option (Bool × List Char)}
    (h : PowerSpelling w power) (hrest : Stops rest) :
    spanPower (w ++ rest) = (power, rest) := by
  cases h with
  | absent =>
    cases rest with
    | nil => rfl
    | cons c rest =>
      have hstop := hrest c rfl
      have hmark : ¬ (c = 'e' ∨ c = 'E') := by
        rintro (rfl | rfl) <;> cases hstop
      rw [List.nil_append, spanPower, if_neg hmark]
  | @present mark sign ds negative hmark hsign hds =>
    have hspan : spanDigits (ds ++ rest) = (ds, rest) :=
      spanDigits_append hds.2 fun c hc => hrest.not_isDigit hc
    rw [List.cons_append, List.cons_append, spanPower, if_pos hmark, List.append_assoc,
      spanSign_append hsign hds]
    dsimp only
    rw [hspan]
    split
    · next hnil => exact absurd (Prod.mk.inj hnil).1 hds.1
    · next hds => rw [(Prod.mk.inj hds).1, (Prod.mk.inj hds).2]

/-- What is scanned where a point follows the whole part. -/
theorem scan_of_point {cs whole rest ds more last : List Char}
    {power : Option (Bool × List Char)} (hwhole : spanDigits cs = (whole, '.' :: rest))
    (hfraction : spanDigits rest = (ds, more)) (hpower : spanPower more = (power, last)) :
    scan cs = (⟨whole, some ds, power⟩, last) := by
  simp [scan, hwhole, hfraction, hpower]

/-- What is scanned where no point follows the whole part. -/
theorem scan_of_no_point {cs whole rest last : List Char} {power : Option (Bool × List Char)}
    (hwhole : spanDigits cs = (whole, rest)) (hrest : rest.head? ≠ some '.')
    (hpower : spanPower rest = (power, last)) : scan cs = (⟨whole, none, power⟩, last) := by
  unfold scan
  rw [hwhole]
  dsimp only
  split
  · exact absurd rfl hrest
  · rw [hpower]

/-- A number of the grammar has a whole part and, after a point, digits. -/
theorem isNumber_eq_true_iff {whole : List Char} {fraction : Option (List Char)}
    {power : Option (Bool × List Char)} (h : ∀ c ∈ whole, c.isDigit = true) :
    isNumber ⟨whole, fraction, power⟩ = true ↔ IsWhole whole ∧ fraction ≠ some [] := by
  unfold isNumber
  dsimp only
  split
  · simp [IsWhole, IsDigits]
  · simp [IsWhole, IsDigits]
  · next ds hds =>
    have hwhole : ¬ IsWhole ('0' :: ds) := fun hwhole => hds (List.cons.inj (hwhole.2 rfl)).2
    simp [hwhole]
  · next hnil hzero hhead =>
    have hwhole : IsWhole whole := by
      refine ⟨⟨hnil, h⟩, fun hhead? => ?_⟩
      obtain ⟨ds, hds⟩ := List.head?_eq_some_iff.1 hhead?
      exact (hhead ds hds).elim
    simp [hwhole]

/-- **A number that is scanned is written as its spelling.** -/
theorem scan_sound {cs last : List Char} {t : DecimalText} (h : scan cs = (t, last))
    (hnumber : isNumber t = true) : ∃ w, cs = w ++ last ∧ NumberSpelling w t := by
  rcases hwhole : spanDigits cs with ⟨whole, rest⟩
  obtain ⟨hcs, hall⟩ := spanDigits_sound hwhole
  by_cases hpoint : rest.head? = some '.'
  · obtain ⟨rest, rfl⟩ := List.head?_eq_some_iff.1 hpoint
    rcases hfraction : spanDigits rest with ⟨ds, more⟩
    rcases hpower : spanPower more with ⟨power, last'⟩
    rw [scan_of_point hwhole hfraction hpower] at h
    obtain ⟨rfl, rfl⟩ := Prod.mk.inj h
    obtain ⟨hisWhole, hne⟩ := (isNumber_eq_true_iff hall).1 hnumber
    obtain ⟨hrest, hplaces⟩ := spanDigits_sound hfraction
    obtain ⟨pw, hmore, hpw⟩ := spanPower_sound hpower
    refine ⟨_, ?_, .mk hisWhole (.present ⟨fun hnil => hne (congrArg _ hnil), hplaces⟩) hpw⟩
    rw [hcs, hrest, hmore]
    simp
  · rcases hpower : spanPower rest with ⟨power, last'⟩
    rw [scan_of_no_point hwhole hpoint hpower] at h
    obtain ⟨rfl, rfl⟩ := Prod.mk.inj h
    obtain ⟨pw, hrest, hpw⟩ := spanPower_sound hpower
    refine ⟨_, ?_, .mk ((isNumber_eq_true_iff hall).1 hnumber).1 .absent hpw⟩
    rw [hcs, hrest]
    simp

/-- What a power and what follows it starts with is neither a digit nor a point. -/
theorem PowerSpelling.head_ne {w rest : List Char} {power : Option (Bool × List Char)}
    (h : PowerSpelling w power) (hrest : Stops rest) {c : Char}
    (hc : (w ++ rest).head? = some c) : c.isDigit = false ∧ c ≠ '.' := by
  cases h with
  | absent => exact ⟨hrest.not_isDigit hc, by rintro rfl; cases hrest _ hc⟩
  | present hmark _ _ =>
    obtain rfl := Option.some.inj hc
    rcases hmark with rfl | rfl <;> decide

/-- **What is written as a number is scanned** up to a character it does not go on
with. -/
theorem scan_append {w rest : List Char} {t : DecimalText} (h : NumberSpelling w t)
    (hrest : Stops rest) : scan (w ++ rest) = (t, rest) ∧ isNumber t = true := by
  obtain @⟨whole, fw, pw, fraction, power, hwhole, hfraction, hpower⟩ := h
  have hscan := spanPower_append hpower hrest
  cases hfraction with
  | absent =>
    have hdigits : spanDigits (whole ++ ([] ++ pw) ++ rest) = (whole, pw ++ rest) := by
      simpa using spanDigits_append hwhole.1.2 fun c hc => (hpower.head_ne hrest hc).1
    exact ⟨scan_of_no_point hdigits (fun hpoint => (hpower.head_ne hrest hpoint).2 rfl) hscan,
      (isNumber_eq_true_iff hwhole.1.2).2 ⟨hwhole, nofun⟩⟩
  | @present ds hds =>
    have hdigits : spanDigits (whole ++ ('.' :: ds ++ pw) ++ rest)
        = (whole, '.' :: (ds ++ (pw ++ rest))) := by
      have hpoint : ∀ c, ('.' :: (ds ++ (pw ++ rest))).head? = some c → c.isDigit = false := by
        rintro c ⟨⟩
        decide
      simpa using spanDigits_append hwhole.1.2 hpoint
    have hplaces : spanDigits (ds ++ (pw ++ rest)) = (ds, pw ++ rest) :=
      spanDigits_append hds.2 fun c hc => (hpower.head_ne hrest hc).1
    exact ⟨scan_of_point hdigits hplaces hscan,
      (isNumber_eq_true_iff hwhole.1.2).2 ⟨hwhole, fun hnil => hds.1 (Option.some.inj hnil)⟩⟩

/-! ## Tokens -/

/-- **What a token is written as.** -/
inductive TokenSpelling : List Char → Token → Prop
  | openList : TokenSpelling ['['] .openList
  | closeList : TokenSpelling [']'] .closeList
  | openMap : TokenSpelling ['\x7b'] .openMap
  | closeMap : TokenSpelling ['\x7d'] .closeMap
  | colon : TokenSpelling [':'] .colon
  | comma : TokenSpelling [','] .comma
  | null : TokenSpelling ['n', 'u', 'l', 'l'] (.atom .null)
  | truth : TokenSpelling ['t', 'r', 'u', 'e'] (.atom (.bool true))
  | falsehood : TokenSpelling ['f', 'a', 'l', 's', 'e'] (.atom (.bool false))
  /-- A number that is in range. -/
  | number {w : List Char} {t : DecimalText} {value : Data} (h : NumberSpelling w t)
      (hvalue : numberValue false t = some value) : TokenSpelling w (.atom value)
  /-- A number after a minus sign that is in range. -/
  | negative {w : List Char} {t : DecimalText} {value : Data} (h : NumberSpelling w t)
      (hvalue : numberValue true t = some value) : TokenSpelling ('-' :: w) (.atom value)
  /-- A text between quotes. -/
  | text {ws cs : List Char} (h : TextSpelling ws cs) :
      TokenSpelling ('\x22' :: (ws ++ ['\x22'])) (.atom (.text (String.ofList cs)))

/-- A number is read as scanned. -/
theorem number_sound {negative : Bool} {cs rest : List Char} {token : Token}
    (h : Token.read.number negative cs = some (token, rest)) :
    ∃ w t value, cs = w ++ rest ∧ NumberSpelling w t ∧ numberValue negative t = some value
      ∧ token = .atom value := by
  unfold Token.read.number at h
  rcases hscan : scan cs with ⟨t, last⟩
  rw [hscan] at h
  dsimp only at h
  split at h
  · next hnumber =>
    obtain ⟨value, hvalue, hpair⟩ := Option.map_eq_some_iff.1 h
    obtain ⟨rfl, rfl⟩ := Prod.mk.inj hpair
    obtain ⟨w, hcs, hw⟩ := scan_sound hscan hnumber
    exact ⟨w, t, value, hcs, hw, hvalue, rfl⟩
  · cases h

theorem number_append {negative : Bool} {w rest : List Char} {t : DecimalText} {value : Data}
    (h : NumberSpelling w t) (hvalue : numberValue negative t = some value)
    (hrest : Stops rest) :
    Token.read.number negative (w ++ rest) = some (.atom value, rest) := by
  obtain ⟨hscan, hnumber⟩ := scan_append h hrest
  rw [Token.read.number, hscan]
  dsimp only
  rw [if_pos hnumber, hvalue]
  rfl

/-- **A token that is read is written as its spelling.** -/
theorem read_sound {cs rest : List Char} {token : Token}
    (h : Token.read cs = some (token, rest)) :
    ∃ w, cs = w ++ rest ∧ TokenSpelling w token := by
  unfold Token.read at h
  split at h
  case h_7 =>
    obtain ⟨⟨text, rest'⟩, hread, hpair⟩ := Option.map_eq_some_iff.1 h
    obtain ⟨rfl, rfl⟩ := Prod.mk.inj hpair
    obtain ⟨ws, hcs, hws⟩ := exists_textSpelling hread
    exact ⟨_, by simp [hcs], .text hws⟩
  case h_11 =>
    obtain ⟨w, t, value, rfl, hw, hvalue, rfl⟩ := number_sound h
    exact ⟨'-' :: w, rfl, .negative hw hvalue⟩
  case h_12 =>
    obtain ⟨w, t, value, rfl, hw, hvalue, rfl⟩ := number_sound h
    exact ⟨w, rfl, .number hw hvalue⟩
  all_goals
    obtain ⟨rfl, rfl⟩ := Prod.mk.inj (Option.some.inj h)
    exact ⟨_, rfl, by constructor⟩

/-- A token that starts with a digit is a number. -/
theorem read_of_isDigit {c : Char} (h : c.isDigit = true) (cs : List Char) :
    Token.read (c :: cs) = Token.read.number false (c :: cs) := by
  unfold Token.read
  split
  case h_12 => rfl
  all_goals exact absurd h (by simp_all)

/-- **What is written as a token is read.** What follows a token with a value must not be
what a number could go on with. -/
theorem read_append {w rest : List Char} {token : Token} (h : TokenSpelling w token)
    (hrest : ∀ value, token = .atom value → Stops rest) :
    Token.read (w ++ rest) = some (token, rest) := by
  cases h with
  | openList | closeList | openMap | closeMap | colon | comma | null | truth | falsehood => rfl
  | @number w t value hw hvalue =>
    have hread := number_append hw hvalue (hrest value rfl)
    obtain @⟨whole, fw, pw, fraction, power, hwhole, -, -⟩ := hw
    obtain ⟨d, ds, rfl⟩ := List.exists_cons_of_ne_nil hwhole.1.1
    rw [← hread]
    exact read_of_isDigit (hwhole.1.2 d List.mem_cons_self) _
  | @negative w t value hw hvalue => exact number_append hw hvalue (hrest value rfl)
  | @text ws cs hw =>
    rw [List.cons_append, List.append_assoc, List.singleton_append, Token.read,
      readText_textSpelling hw]
    rfl

theorem isSpace_eq_true_iff {c : Char} :
    isSpace c = true ↔ c = ' ' ∨ c = '\t' ∨ c = '\n' ∨ c = '\r' := by
  simp [isSpace, or_assoc]

/-- A number does not go on with space. -/
theorem goesOn_of_isSpace {c : Char} (h : isSpace c = true) : goesOn c = false := by
  rcases isSpace_eq_true_iff.1 h with rfl | rfl | rfl | rfl <;> decide

/-- A token is written as something, and it does not start with space. -/
theorem TokenSpelling.exists_cons {w : List Char} {token : Token} (h : TokenSpelling w token) :
    ∃ c tail, w = c :: tail ∧ isSpace c = false
      ∧ ((∃ value, token = .atom value) ∨ goesOn c = false) := by
  cases h with
  | openList | closeList | openMap | closeMap | colon | comma =>
    exact ⟨_, _, rfl, by decide, .inr (by decide)⟩
  | null | truth | falsehood | negative _ _ | text _ =>
    exact ⟨_, _, rfl, by decide, .inl ⟨_, rfl⟩⟩
  | number hw _ =>
    obtain @⟨whole, fw, pw, fraction, power, hwhole, -, -⟩ := hw
    obtain ⟨d, ds, rfl⟩ := List.exists_cons_of_ne_nil hwhole.1.1
    have hdigit : d.isDigit = true := hwhole.1.2 d List.mem_cons_self
    refine ⟨d, _, rfl, Bool.eq_false_iff.2 fun hspace => ?_, .inl ⟨_, rfl⟩⟩
    rcases isSpace_eq_true_iff.1 hspace with rfl | rfl | rfl | rfl <;>
      exact absurd hdigit (by decide)

/-- No token is a map. -/
theorem TokenSpelling.not_map {w : List Char} {entries : List (String × Data)} :
    ¬ TokenSpelling w (.atom (.map entries)) := by
  have hnumber : ∀ negative t, numberValue negative t ≠ some (.map entries) := by
    intro negative t hvalue
    unfold numberValue at hvalue
    dsimp only at hvalue
    split at hvalue <;> split at hvalue <;> simp at hvalue
  intro h
  cases h with
  | number _ hvalue | negative _ hvalue => exact hnumber _ _ hvalue

/-! ## Sequences of tokens -/

/-- **What tokens are written as**: one after the other, with white space around them. -/
inductive Lexes : List Token → List Char → Prop
  | nil {space : List Char} (hspace : ∀ c ∈ space, isSpace c = true) : Lexes [] space
  | cons {space w cs : List Char} {token : Token} {ts : List Token}
      (hspace : ∀ c ∈ space, isSpace c = true) (h : TokenSpelling w token) (hs : Lexes ts cs) :
      Lexes (token :: ts) (space ++ (w ++ cs))

/-- Tokens that do not both carry a value. -/
def Apart (a b : Token) : Prop := ∀ x y, ¬ (a = .atom x ∧ b = .atom y)

theorem tokens_eq_nil {cs : List Char} (h : cs.dropWhile isSpace = []) :
    tokens cs = some [] := by
  rw [tokens]
  split
  · rfl
  · next hcons => rw [h] at hcons; cases hcons

theorem tokens_eq_cons {cs tail rest : List Char} {c : Char} {token : Token}
    (h : cs.dropWhile isSpace = c :: tail) (hread : Token.read (c :: tail) = some (token, rest)) :
    tokens cs = (tokens rest).map (token :: ·) := by
  rw [tokens]
  split
  · next hnil => rw [h] at hnil; cases hnil
  · next c' tail' hcons =>
    obtain ⟨rfl, rfl⟩ := List.cons.inj (h.symm.trans hcons)
    split
    · next hnone => rw [hread] at hnone; cases hnone
    · next hsome =>
      obtain ⟨rfl, rfl⟩ := Prod.mk.inj (Option.some.inj (hread.symm.trans hsome))
      rfl

/-- **What is found in a text is written there.** -/
theorem lexes_of_tokens {cs : List Char} {ts : List Token} (h : tokens cs = some ts) :
    Lexes ts cs := by
  have hspace : ∀ c ∈ cs.takeWhile isSpace, isSpace c = true := fun _ => List.mem_takeWhile_imp
  have hcs : cs = cs.takeWhile isSpace ++ cs.dropWhile isSpace :=
    List.takeWhile_append_dropWhile.symm
  fun_induction tokens cs generalizing ts with
  | case1 cs hnil =>
    obtain rfl := Option.some.inj h
    rw [hnil, List.append_nil] at hcs
    exact hcs ▸ .nil hspace
  | case2 => cases h
  | case3 cs c tail hdrop token rest hread ih =>
    obtain ⟨more, hmore, rfl⟩ := Option.map_eq_some_iff.1 h
    obtain ⟨w, hw, hspelling⟩ := read_sound hread
    rw [hcs, hdrop, hw]
    exact .cons hspace hspelling (ih hmore (fun _ => List.mem_takeWhile_imp)
      List.takeWhile_append_dropWhile.symm)

/-- Tokens that do not start with a value start with something a number does not go on
with. -/
theorem Lexes.stops {ts : List Token} {cs : List Char} (h : Lexes ts cs)
    (hhead : ∀ value, ts.head? ≠ some (.atom value)) : Stops cs := by
  intro c hc
  cases h with
  | nil hspace => exact goesOn_of_isSpace (hspace c (List.mem_of_mem_head? hc))
  | @cons space w cs token ts hspace hw hs =>
    cases space with
    | cons s space =>
      obtain rfl := Option.some.inj hc
      exact goesOn_of_isSpace (hspace s List.mem_cons_self)
    | nil =>
      obtain ⟨c', tail, rfl, -, ⟨value, rfl⟩ | hstop⟩ := hw.exists_cons
      · exact absurd rfl (hhead value)
      · obtain rfl := Option.some.inj hc
        exact hstop

/-- **What is written in a text is found**, if no two values stand side by side. -/
theorem tokens_of_lexes {cs : List Char} {ts : List Token} (h : Lexes ts cs)
    (hapart : ts.IsChain Apart) : tokens cs = some ts := by
  induction h with
  | @nil space hspace =>
    exact tokens_eq_nil (List.dropWhile_eq_nil_iff.2 hspace)
  | @cons space w cs token ts hspace hw hs ih =>
    obtain ⟨hnext, htail⟩ := List.isChain_cons.1 hapart
    -- what follows a value is no value, so the value ends where its spelling does
    have hread : Token.read (w ++ cs) = some (token, cs) := by
      refine read_append hw fun value hvalue => hs.stops fun other hother => ?_
      exact hnext _ hother value other ⟨hvalue, rfl⟩
    obtain ⟨c, tail, rfl, hc, -⟩ := hw.exists_cons
    have hdrop : (space ++ (c :: tail ++ cs)).dropWhile isSpace = c :: (tail ++ cs) := by
      rw [List.dropWhile_append_of_pos hspace, List.cons_append, List.dropWhile_cons, hc]
      rfl
    rw [tokens_eq_cons hdrop hread, ih htail]
    rfl

end TypeAtlas.Json
