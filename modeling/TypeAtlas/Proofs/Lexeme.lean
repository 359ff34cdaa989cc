import TypeAtlas.Diagram.Document

/-!
# The lexemes of a document

A reader that knows the lexical rules of the DOT language and nothing else takes a text
for a sequence of lexemes: an id in quotes runs to the first quote that no backslash
stands before, a label runs to the angle bracket that balances its first one, and every
other character, blank ones included, is a lexeme of its own. `lex` is this reader, one
character at a time; a text that ends inside an id or a label has no lexemes.

What is read does not depend on what follows (`lex_append`), so a document is read by
reading its pieces: an id in quotes is read back as the name that it was written for,
whatever characters that has (`lex_quoteId`), and a label whose angle brackets are
balanced is read as a whole (`lex_label`).
-/

namespace TypeAtlas

/-- **A lexeme** of a document. -/
inductive Lexeme where
  /-- An id in quotes: the name that it stands for. -/
  | quoted (name : String)
  /-- A label: what stands between its angle brackets. -/
  | label (body : List Char)
  /-- Any other character. -/
  | mark (c : Char)
  deriving DecidableEq

namespace Lexeme

/-- **Where a reader stands** in a text. What it has taken of a lexeme is in reverse. -/
inductive Place where
  /-- In no id and no label. -/
  | outside
  /-- In an id. -/
  | inId (taken : List Char)
  /-- In an id, after a backslash that means something. -/
  | afterBackslash (taken : List Char)
  /-- In a label, within further angle brackets. -/
  | inLabel (depth : Nat) (taken : List Char)
  deriving DecidableEq

/-- **One character is read**: the next place, and the lexeme that ends there, if one
does. -/
def Place.read : Place → Char → Place × Option Lexeme
  | outside, c =>
    if c = '\x22' then (inId [], none)
    else if c = '<' then (inLabel 0 [], none)
    else (outside, some (mark c))
  | inId taken, c =>
    if c = '\x22' then (outside, some (quoted (String.ofList taken.reverse)))
    else if c = '\\' then (afterBackslash taken, none)
    else (inId (c :: taken), none)
  | afterBackslash taken, c =>
    if c = '\x22' ∨ c = '\\' then (inId (c :: taken), none)
    else (inId (c :: '\\' :: taken), none)
  | inLabel depth taken, c =>
    if c = '<' then (inLabel (depth + 1) (c :: taken), none)
    else if c = '>' then
      match depth with
      | 0 => (outside, some (label taken.reverse))
      | depth + 1 => (inLabel depth (c :: taken), none)
    else (inLabel depth (c :: taken), none)

/-- The lexemes that end in a text, from a place on. -/
def lexFrom : Place → List Char → Option (List Lexeme)
  | place, [] => if place = .outside then some [] else none
  | place, c :: cs =>
    (lexFrom (place.read c).1 cs).map ((place.read c).2.toList ++ ·)

/-- **The lexemes of a text.** -/
def lex (cs : List Char) : Option (List Lexeme) := lexFrom .outside cs

/-! ## Reading piece by piece -/

theorem lexFrom_append {place : Place} {cs : List Char} {ls : List Lexeme}
    (h : lexFrom place cs = some ls) (ds : List Char) :
    lexFrom place (cs ++ ds) = (lex ds).map (ls ++ ·) := by
  induction cs generalizing place ls with
  | nil =>
    unfold lexFrom at h
    split at h
    · next houtside =>
      cases h
      simp [houtside, lex]
    · cases h
  | cons c cs ih =>
    obtain ⟨rest, hrest, rfl⟩ := Option.map_eq_some_iff.1 h
    rw [List.cons_append, lexFrom, ih hrest, Option.map_map]
    congr 1
    funext ms
    simp

/-- **What is read does not depend on what follows.** -/
theorem lex_append {cs ds : List Char} {ls ms : List Lexeme} (hcs : lex cs = some ls)
    (hds : lex ds = some ms) : lex (cs ++ ds) = some (ls ++ ms) := by
  rw [lex, lexFrom_append hcs, hds, Option.map_some]

theorem lex_flatMap {α : Type} {text : α → List Char} {lexemes : α → List Lexeme}
    (h : ∀ x, lex (text x) = some (lexemes x)) (xs : List α) :
    lex (xs.flatMap text) = some (xs.flatMap lexemes) := by
  induction xs with
  | nil => rfl
  | cons x xs ih => exact lex_append (h x) ih

/-- Whether a character opens neither an id nor a label. -/
def isMark (c : Char) : Bool := c != '\x22' && c != '<'

/-- Characters that open nothing are read as they stand. -/
theorem lex_marks {cs : List Char} (h : cs.all isMark = true) :
    lex cs = some (cs.map mark) := by
  induction cs with
  | nil => rfl
  | cons c cs ih =>
    rw [List.all_cons, Bool.and_eq_true] at h
    obtain ⟨hquote, hangle⟩ : c ≠ '\x22' ∧ c ≠ '<' := by simpa [isMark] using h.1
    have hrest := ih h.2
    rw [lex] at hrest ⊢
    simp [lexFrom, Place.read, hquote, hangle, hrest]

/-! ## Ids -/

/-- In an id, a name that is written with backslashes is taken as it is. -/
theorem lexFrom_escape (cs taken ds : List Char) :
    lexFrom (.inId taken) (cs.flatMap quoteId.escape ++ ds)
      = lexFrom (.inId (cs.reverse ++ taken)) ds := by
  induction cs generalizing taken with
  | nil => rfl
  | cons c cs ih =>
    rw [List.flatMap_cons, List.append_assoc, List.reverse_cons, List.append_assoc,
      List.singleton_append, ← ih (c :: taken)]
    -- a backslash and a quote are two characters of the id, which are read as one
    by_cases hbackslash : c = '\\'
    · simp [quoteId.escape, hbackslash, lexFrom, Place.read]
    by_cases hquote : c = '\x22'
    · simp [quoteId.escape, hquote, lexFrom, Place.read]
    · simp [quoteId.escape, hbackslash, hquote, lexFrom, Place.read]

/-- **An id in quotes is read back as its name**, whatever characters the name has. -/
theorem lex_quoteId (name : String) : lex (quoteId name) = some [quoted name] := by
  have hopen : lex (quoteId name)
      = lexFrom (.inId []) (name.toList.flatMap quoteId.escape ++ ['\x22']) := by
    simp [lex, lexFrom, quoteId, Place.read]
  rw [hopen, lexFrom_escape]
  simp [lexFrom, Place.read]

/-- Whether a character stands in an id as it is. -/
def isVerbatim (c : Char) : Bool := c != '\x22' && c != '\\'

/-- A name in which nothing is escaped stands in its id as it is. -/
theorem quoteId_eq {name : String} (h : name.toList.all isVerbatim = true) :
    quoteId name = '\x22' :: name.toList ++ ['\x22'] := by
  have hescape : name.toList.flatMap quoteId.escape = name.toList.flatMap fun c => [c] := by
    rw [List.flatMap_def, List.flatMap_def]
    congr 1
    refine List.map_congr_left fun c hc => ?_
    have hverbatim : c ≠ '\x22' ∧ c ≠ '\\' := by
      simpa [isVerbatim] using List.all_eq_true.1 h c hc
    simp [quoteId.escape, hverbatim]
  rw [quoteId, hescape, List.flatMap_singleton']

/-! ## Labels -/

/-- **A text whose angle brackets are balanced.** -/
inductive Balanced : List Char → Prop
  /-- No characters. -/
  | nil : Balanced []
  /-- A character that is no angle bracket. -/
  | plain {c : Char} {cs : List Char} :
    c ≠ '<' → c ≠ '>' → Balanced cs → Balanced (c :: cs)
  /-- Two angle brackets around a balanced text. -/
  | nest {cs ds : List Char} :
    Balanced cs → Balanced ds → Balanced ('<' :: cs ++ '>' :: ds)

theorem Balanced.append {cs ds : List Char} (hcs : Balanced cs) (hds : Balanced ds) :
    Balanced (cs ++ ds) := by
  induction hcs with
  | nil => exact hds
  | plain hopen hclose _ ih => exact .plain hopen hclose ih
  | nest hcs _ _ ih =>
    rw [List.append_assoc, List.cons_append]
    exact .nest hcs ih

theorem balanced_of_plain {cs : List Char} (h : ∀ c ∈ cs, c ≠ '<' ∧ c ≠ '>') :
    Balanced cs := by
  induction cs with
  | nil => exact .nil
  | cons c cs ih =>
    obtain ⟨hopen, hclose⟩ := h c List.mem_cons_self
    exact .plain hopen hclose (ih fun d hd => h d (List.mem_cons_of_mem _ hd))

/-- In a label, a balanced text is taken as a whole, however deep the reader is. -/
theorem Balanced.lexFrom_inLabel {cs : List Char} (h : Balanced cs) (depth : Nat)
    (taken ds : List Char) :
    lexFrom (.inLabel depth taken) (cs ++ ds)
      = lexFrom (.inLabel depth (cs.reverse ++ taken)) ds := by
  induction h generalizing depth taken ds with
  | nil => rfl
  | @plain c cs hopen hclose _ ih =>
    have hread := ih depth (c :: taken) ds
    simp [lexFrom, Place.read, hopen, hclose, hread]
  | @nest cs es _ _ ihcs ihes =>
    -- the text inside is taken one level deeper, and its last bracket leads back up
    have hinner := ihcs (depth + 1) ('<' :: taken) ('>' :: (es ++ ds))
    have hafter := ihes depth ('>' :: (cs.reverse ++ '<' :: taken)) ds
    rw [List.append_assoc, List.cons_append, List.cons_append]
    simp [lexFrom, Place.read, hinner, hafter]

/-- **A label with balanced angle brackets is read as a whole.** -/
theorem lex_label {body : List Char} (h : Balanced body) :
    lex ('<' :: body ++ ['>']) = some [label body] := by
  have hopen : lex ('<' :: body ++ ['>']) = lexFrom (.inLabel 0 []) (body ++ ['>']) := by
    simp [lex, lexFrom, Place.read]
  rw [hopen, h.lexFrom_inLabel]
  simp [lexFrom, Place.read]

end Lexeme

end TypeAtlas
