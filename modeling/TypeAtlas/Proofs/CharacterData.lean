import Mathlib.Tactic.SplitIfs
import TypeAtlas.Diagram.Markup

/-!
# Character data

What a reader makes of character data: an entity stands for a character, by its name or by the
number of the character, and every other character stands for itself. `Entity.decode?` is the
character that an entity stands for, and a character that is written as an entity is read back
from it (`Entity.encodeChar_cases`).

Text that is written in this way is printable, and each `&` in it begins an entity
(`Entity.Encoded`). Nor has it any angle brackets (`Entity.encodeChar_ne`).
-/

namespace TypeAtlas.Entity

/-! ## Plain characters -/

/-- Whether a character means nothing in markup but itself. -/
def isPlain (c : Char) : Bool :=
  isPrintable c && c != '&' && c != '<' && c != '>' && c != '\x22' && c != '\x27'

/-- **A plain text** has no character that means anything in markup. -/
def Plain (text : String) : Prop := text.toList.all isPlain = true

instance (text : String) : Decidable (Plain text) :=
  inferInstanceAs (Decidable (text.toList.all isPlain = true))

theorem ne_of_isPlain {c : Char} (h : isPlain c = true) : c ≠ '<' ∧ c ≠ '>' := by
  simp [isPlain] at h
  exact ⟨h.1.1.1.2, h.1.1.2⟩

theorem isPrintable_of_isPlain {c : Char} (h : isPlain c = true) :
    isPrintable c = true ∧ c ≠ '&' := by
  simp [isPlain] at h
  exact ⟨h.1.1.1.1.1, h.1.1.1.1.2⟩

theorem Plain.ne {text : String} (h : Plain text) {c : Char} (hc : c ∈ text.toList) :
    c ≠ '<' ∧ c ≠ '>' :=
  ne_of_isPlain (List.all_eq_true.1 h c hc)

/-- Whether a character stands in the names of elements and of attributes. -/
def isNameChar (c : Char) : Bool := c.isLower || c == '-'

/-- **A name in markup**: small letters and hyphens. -/
def IsName (text : String) : Prop := text.toList.all isNameChar = true

instance (text : String) : Decidable (IsName text) :=
  inferInstanceAs (Decidable (text.toList.all isNameChar = true))

/-- Letters and digits are plain. -/
theorem isPlain_of_isAlphanum {c : Char} (h : c.isAlphanum = true) : isPlain c = true := by
  have hrange : 48 ≤ c.toNat ∧ c.toNat ≤ 57 ∨ 65 ≤ c.toNat ∧ c.toNat ≤ 90
      ∨ 97 ≤ c.toNat ∧ c.toNat ≤ 122 := by
    change (decide (65 ≤ c.val ∧ c.val ≤ 90) || decide (97 ≤ c.val) && decide (c.val ≤ 122)
      || decide (48 ≤ c.val) && decide (c.val ≤ 57)) = true at h
    simp only [Bool.or_eq_true, Bool.and_eq_true, decide_eq_true_eq,
      UInt32.le_iff_toNat_le] at h
    change ((65 ≤ c.toNat ∧ c.toNat ≤ 90) ∨ 97 ≤ c.toNat ∧ c.toNat ≤ 122)
      ∨ 48 ≤ c.toNat ∧ c.toNat ≤ 57 at h
    omega
  have hne : ∀ d : Char, d.toNat < 48 ∨ 57 < d.toNat ∧ d.toNat < 65 → c ≠ d := by
    rintro d hd rfl
    omega
  simp [isPlain, isPrintable, hne, show 32 ≤ c.toNat by omega, show c.toNat < 127 by omega]

theorem isPlain_of_isNameChar {c : Char} (h : isNameChar c = true) : isPlain c = true := by
  rw [isNameChar, Bool.or_eq_true] at h
  obtain hlower | hhyphen := h
  · refine isPlain_of_isAlphanum ?_
    change (c.isUpper || c.isLower || c.isDigit) = true
    rw [hlower, Bool.or_true, Bool.true_or]
  · rw [eq_of_beq hhyphen]
    decide

/-- A name is plain. -/
theorem IsName.plain {text : String} (h : IsName text) : Plain text :=
  List.all_eq_true.2 fun c hc => isPlain_of_isNameChar (List.all_eq_true.1 h c hc)

/-- Whether a character stands in entities. -/
def isEntityChar (c : Char) : Bool := c == '#' || c.isAlphanum

theorem isPlain_of_isEntityChar {c : Char} (h : isEntityChar c = true) : isPlain c = true := by
  rw [isEntityChar, Bool.or_eq_true] at h
  obtain hsign | halphanum := h
  · rw [eq_of_beq hsign]
    decide
  · exact isPlain_of_isAlphanum halphanum

/-! ## Entities -/

/-- The number that decimal digits stand for, if there are any and nothing else. -/
def decimal? (cs : List Char) : Option Nat :=
  if cs ≠ [] ∧ cs.all Char.isDigit = true then some (Nat.ofDigitChars 10 cs 0) else none

/-- **The character that an entity stands for**, given what is between `&` and `;`. -/
def decode? : List Char → Option Char
  | ['a', 'm', 'p'] => some '&'
  | ['l', 't'] => some '<'
  | ['g', 't'] => some '>'
  | ['q', 'u', 'o', 't'] => some '\x22'
  | ['n', 'b', 's', 'p'] => some '\u00a0'
  | '#' :: digits =>
    match decimal? digits with
    | some n => if n.isValidChar then some (Char.ofNat n) else none
    | none => none
  | _ => none

theorem decimal?_toDigits (n : Nat) : decimal? (Nat.toDigits 10 n) = some n := by
  have hdigits : (Nat.toDigits 10 n).all Char.isDigit = true :=
    List.all_eq_true.2 fun d hd => Nat.isDigit_of_mem_toDigits (by decide) (by decide) hd
  rw [decimal?, if_pos ⟨Nat.toDigits_ne_nil, hdigits⟩,
    Nat.ofDigitChars_toDigits (by decide) (by decide)]

/-- Between `&` and `;` there are letters, digits and number signs. -/
theorem all_of_decode? {body : List Char} {c : Char} (h : decode? body = some c) :
    body.all isEntityChar = true := by
  unfold decode? at h
  split at h
  · decide
  · decide
  · decide
  · decide
  · decide
  · next digits =>
    cases hdigits : decimal? digits with
    | none => simp [hdigits] at h
    | some n =>
      unfold decimal? at hdigits
      split at hdigits
      · next hall =>
        rw [List.all_cons, Bool.and_eq_true]
        refine ⟨by decide, List.all_eq_true.2 fun d hd => ?_⟩
        simp [isEntityChar, Char.isAlphanum, List.all_eq_true.1 hall.2 d hd]
      · cases hdigits
  · cases h

/-- **A character is written as itself if it is plain**, and otherwise as an entity that stands
for it. -/
theorem encodeChar_cases (c : Char) :
    (isPlain c = true ∧ encodeChar c = [c])
      ∨ ∃ body, encodeChar c = '&' :: body ++ [';'] ∧ decode? body = some c := by
  unfold encodeChar
  split_ifs with hamp hlt hgt hquote hsingle hprintable
  · exact .inr ⟨['a', 'm', 'p'], rfl, by rw [hamp]; rfl⟩
  · exact .inr ⟨['l', 't'], rfl, by rw [hlt]; rfl⟩
  · exact .inr ⟨['g', 't'], rfl, by rw [hgt]; rfl⟩
  · exact .inr ⟨['q', 'u', 'o', 't'], rfl, by rw [hquote]; rfl⟩
  · exact .inr ⟨['#', '3', '9'], rfl, by rw [hsingle]; decide⟩
  · exact .inl ⟨by simp [isPlain, *], rfl⟩
  · have hvalid : c.toNat.isValidChar := c.valid
    refine .inr ⟨'#' :: Nat.toDigits 10 c.toNat, rfl, ?_⟩
    simp only [decode?, decimal?_toDigits]
    rw [if_pos hvalid, Char.ofNat_toNat]

/-- Character data has no angle brackets. -/
theorem encodeChar_ne {c d : Char} (h : d ∈ encodeChar c) : d ≠ '<' ∧ d ≠ '>' := by
  obtain ⟨hplain, heq⟩ | ⟨body, heq, hbody⟩ := encodeChar_cases c
  · rw [heq, List.mem_singleton] at h
    exact h ▸ ne_of_isPlain hplain
  · rw [heq, List.cons_append, List.mem_cons, List.mem_append, List.mem_singleton] at h
    obtain rfl | hd | rfl := h
    · decide
    · have hentity := List.all_eq_true.1 (all_of_decode? hbody) d hd
      constructor <;> rintro rfl <;> exact absurd hentity (by decide)
    · decide

/-! ## Encoded text -/

/-- **Encoded text** is printable, and each `&` in it begins an entity. -/
inductive Encoded : List Char → Prop
  /-- No characters. -/
  | nil : Encoded []
  /-- A character that begins no entity. -/
  | char {c : Char} {cs : List Char} (hprintable : isPrintable c = true) (hamp : c ≠ '&')
    (hrest : Encoded cs) : Encoded (c :: cs)
  /-- An entity. -/
  | entity {body cs : List Char} {c : Char} (hbody : decode? body = some c)
    (hrest : Encoded cs) : Encoded ('&' :: body ++ ';' :: cs)

namespace Encoded

variable {cs ds : List Char}

theorem append (hcs : Encoded cs) (hds : Encoded ds) : Encoded (cs ++ ds) := by
  induction hcs with
  | nil => exact hds
  | char hprintable hamp _ ih => exact .char hprintable hamp ih
  | entity hbody _ ih =>
    rw [List.append_assoc, List.cons_append]
    exact .entity hbody ih

theorem of_forall (h : ∀ c ∈ cs, isPrintable c = true ∧ c ≠ '&') : Encoded cs := by
  induction cs with
  | nil => exact .nil
  | cons c cs ih =>
    obtain ⟨⟨hprintable, hamp⟩, hcs⟩ := List.forall_mem_cons.1 h
    exact .char hprintable hamp (ih hcs)

/-- **Encoded text is printable.** -/
theorem isPrintable (h : Encoded cs) : ∀ c ∈ cs, isPrintable c = true := by
  induction h with
  | nil => simp
  | char hprintable _ _ ih => exact List.forall_mem_cons.2 ⟨hprintable, ih⟩
  | entity hbody _ ih =>
    have hchars := List.all_eq_true.1 (all_of_decode? hbody)
    rw [List.cons_append, List.forall_mem_cons, List.forall_mem_append, List.forall_mem_cons]
    exact ⟨by decide,
      fun c hc => (isPrintable_of_isPlain (isPlain_of_isEntityChar (hchars c hc))).1, by decide, ih⟩

/-- **Each `&` in encoded text begins an entity.** -/
theorem exists_entity (h : Encoded cs) {before after : List Char}
    (hcs : cs = before ++ '&' :: after) :
    ∃ body rest c, after = body ++ ';' :: rest ∧ decode? body = some c := by
  induction h generalizing before with
  | nil => simp at hcs
  | char _ hamp _ ih =>
    cases before with
    | nil => exact absurd (List.cons.inj hcs).1 hamp
    | cons d before => exact ih (List.cons.inj hcs).2
  | @entity body cs c hbody _ ih =>
    cases before with
    | nil => exact ⟨body, cs, c, (List.cons.inj hcs).2.symm, hbody⟩
    | cons d before =>
      obtain ⟨more, -, hmore⟩ | ⟨inner, hinner, hafter⟩ :=
        List.append_eq_append_iff.1 (List.cons.inj hcs).2
      · cases more with
        | nil => exact absurd (List.cons.inj hmore).1 (by decide)
        | cons e more => exact ih (List.cons.inj hmore).2
      · -- there is no further `&` before the end of the entity
        cases inner with
        | nil => exact absurd (List.cons.inj hafter).1 (by decide)
        | cons e inner =>
          have hmem : '&' ∈ body := by
            rw [hinner, (List.cons.inj hafter).1]
            simp
          have hentity := List.all_eq_true.1 (all_of_decode? hbody) _ hmem
          exact absurd hentity (by decide)

end Encoded

/-- **Character data is encoded.** -/
theorem encoded_encode (cs : List Char) : Encoded (encode cs) := by
  induction cs with
  | nil => exact .nil
  | cons c cs ih =>
    obtain ⟨hplain, hchar⟩ | ⟨body, hchar, hbody⟩ := encodeChar_cases c
    · obtain ⟨hprintable, hamp⟩ := isPrintable_of_isPlain hplain
      rw [encode_cons, hchar]
      exact .char hprintable hamp ih
    · rw [encode_cons, hchar, List.append_assoc]
      exact .entity hbody ih

end TypeAtlas.Entity
