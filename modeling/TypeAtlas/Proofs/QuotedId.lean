import Mathlib.Algebra.Group.Nat.Even
import TypeAtlas.Proofs.Lexeme

/-!
# Where a quoted id ends

An id in quotes may hold quotes and backslashes of its own, in runs of any length, and what
follows it may begin with more of them. A reader goes from left to right and takes the first
lexeme that ends (`first?`); it sees nothing of what stands behind. So an id has to show its own
end, and it does: it is read as its name in front of any text, it is not read from less than the
whole of it, and no id begins with another one (`delimits_quoteId`).

The id is written in two passes over the name, first over its backslashes and then over its
quotes; the second pass also meets the backslashes of the first, but leaves them alone, so one
pass does the same (`replaceChar_replaceChar`). The other order would not do, since the
backslashes that stand before quotes would then be doubled.
-/

namespace TypeAtlas

/-- A character is replaced wherever it stands. -/
def replaceChar (c : Char) (w cs : List Char) : List Char :=
  cs.flatMap fun d => if d = c then w else [d]

/-- **A name is escaped in two passes**, backslashes first. -/
theorem replaceChar_replaceChar (cs : List Char) :
    replaceChar '\x22' ['\\', '\x22'] (replaceChar '\\' ['\\', '\\'] cs)
      = cs.flatMap quoteId.escape := by
  rw [replaceChar, replaceChar, List.flatMap_assoc]
  congr 1
  funext c
  by_cases hbackslash : c = '\\'
  · simp [quoteId.escape, hbackslash]
  by_cases hquote : c = '\x22'
  · simp [quoteId.escape, hquote]
  · simp [quoteId.escape, hbackslash, hquote]

example : replaceChar '\\' ['\\', '\\'] (replaceChar '\x22' ['\\', '\x22'] ['\x22'])
    ≠ ['\x22'].flatMap quoteId.escape := by decide

namespace Lexeme

/-! ## The first lexeme of a text -/

/-- **The first lexeme of a text**, from a place on, and what stands behind it. -/
def first? : Place → List Char → Option (Lexeme × List Char)
  | _, [] => none
  | place, c :: cs =>
    match place.read c with
    | (_, some l) => some (l, cs)
    | (next, none) => first? next cs

/-- A lexeme ends exactly where the reader gets outside. -/
theorem Place.isSome_read {place : Place} {c : Char} :
    (place.read c).2.isSome = true ↔ (place.read c).1 = outside := by
  fun_cases Place.read place c <;> simp

/-- **What stands behind the first lexeme is not looked at.** -/
theorem first?_append {place : Place} {cs rest : List Char} {l : Lexeme}
    (h : first? place cs = some (l, rest)) (ds : List Char) :
    first? place (cs ++ ds) = some (l, rest ++ ds) := by
  induction cs generalizing place with
  | nil => cases h
  | cons c cs ih =>
    unfold first? at h
    rw [List.cons_append, first?]
    rcases hread : place.read c with ⟨next, _ | m⟩ <;> rw [hread] at h
    · exact ih h
    · obtain ⟨rfl, rfl⟩ := Prod.mk.inj (Option.some.inj h)
      rfl

/-- Only no characters have no lexemes. -/
theorem eq_nil_of_lexFrom {place : Place} {cs : List Char} (h : lexFrom place cs = some []) :
    place = .outside ∧ cs = [] := by
  induction cs generalizing place with
  | nil =>
    unfold lexFrom at h
    split at h
    · next houtside => exact ⟨houtside, rfl⟩
    · cases h
  | cons c cs ih =>
    -- the reader would be outside after the character, but then a lexeme ends there
    obtain ⟨ls, hls, hnone⟩ := Option.map_eq_some_iff.1 h
    obtain ⟨hread, rfl⟩ := List.append_eq_nil_iff.1 hnone
    have hsome := Place.isSome_read.2 (ih hls).1
    rw [Option.toList_eq_nil_iff.1 hread] at hsome
    cases hsome

/-- **The first lexeme of a text is the first of its lexemes.** -/
theorem exists_first? {place : Place} {cs : List Char} {l : Lexeme} {ls : List Lexeme}
    (h : lexFrom place cs = some (l :: ls)) :
    ∃ rest, first? place cs = some (l, rest) ∧ lex rest = some ls := by
  induction cs generalizing place with
  | nil =>
    unfold lexFrom at h
    split at h <;> cases h
  | cons c cs ih =>
    obtain ⟨ms, hms, heq⟩ := Option.map_eq_some_iff.1 h
    have hends := @Place.isSome_read place c
    unfold first?
    rcases hread : place.read c with ⟨next, _ | m⟩ <;> rw [hread] at hms heq hends
    · exact ih (hms.trans (congrArg some heq))
    · obtain ⟨rfl, rfl⟩ := List.cons.inj heq
      obtain rfl : next = .outside := hends.1 rfl
      exact ⟨cs, rfl, hms⟩

/-- **An id in quotes is read in front of any text.** -/
theorem first?_quoteId_append (name : String) (rest : List Char) :
    first? .outside (quoteId name ++ rest) = some (quoted name, rest) := by
  obtain ⟨left, hfirst, hleft⟩ := exists_first? (lex_quoteId name)
  obtain rfl : left = [] := (eq_nil_of_lexFrom hleft).2
  exact first?_append hfirst rest

/-- Nothing is read from less than an id. -/
theorem first?_eq_none_of_quoteId_eq {name : String} {front rest : List Char}
    (h : quoteId name = front ++ rest) (hrest : rest ≠ []) : first? .outside front = none := by
  rw [Option.eq_none_iff_forall_ne_some]
  rintro ⟨l, left⟩ hfront
  have hwhole := first?_append hfront rest
  have hid := first?_quoteId_append name []
  rw [List.append_nil, h, hwhole] at hid
  exact hrest (List.append_eq_nil_iff.1 (Prod.mk.inj (Option.some.inj hid)).2).2

/-! ## Runs of backslashes -/

/-- Whether the backslashes at the end of some characters are odd in number. -/
def endsOdd (cs : List Char) : Bool := cs.foldl (fun odd c => c = '\\' && !odd) false

/-- Behind another character, the backslashes are those of their run. -/
theorem endsOdd_run {front : List Char} (h : front.getLast? ≠ some '\\') (n : Nat) :
    endsOdd (front ++ List.replicate n '\\') = false ↔ Even n := by
  induction n with
  | zero =>
    rcases List.eq_nil_or_concat front with rfl | ⟨cs, c, rfl⟩
    · simp [endsOdd]
    · have hc : c ≠ '\\' := by simpa using h
      simp [endsOdd, hc]
  | succ n ih =>
    rw [List.replicate_succ', ← List.append_assoc, endsOdd, List.foldl_append, ← endsOdd,
      Nat.even_add_one, ← ih]
    simp

/-- What is written for a character leaves no backslash open. -/
theorem endsOdd_escape_append (c : Char) (cs : List Char) :
    endsOdd (quoteId.escape c ++ cs) = endsOdd cs := by
  unfold quoteId.escape
  split
  · rfl
  · split
    · rfl
    · next hbackslash _ => simp [endsOdd, hbackslash]

/-- A quote in what is written for a character stands behind a backslash. -/
theorem eq_of_escape_eq {c : Char} {pre post : List Char}
    (h : quoteId.escape c = pre ++ '\x22' :: post) : pre = ['\\'] := by
  have hmem : '\x22' ∈ quoteId.escape c := h ▸ List.mem_append_right pre List.mem_cons_self
  unfold quoteId.escape at h hmem
  split at hmem
  · exact absurd hmem (by decide)
  · next hbackslash =>
    rw [if_neg hbackslash] at h
    split at hmem
    · next hquote =>
      rw [if_pos hquote] at h
      rcases List.cons_eq_append_iff.1 h with ⟨-, hpost⟩ | ⟨front, rfl, hfront⟩
      · exact absurd (List.cons.inj hpost).1 (by decide)
      · rcases List.cons_eq_append_iff.1 hfront with ⟨rfl, -⟩ | ⟨back, -, hback⟩
        · rfl
        · simp at hback
    · next hquote => exact absurd (List.mem_singleton.1 hmem).symm hquote

/-- **A quote ends an id exactly if the backslashes before it are even in number.** -/
theorem endsOdd_eq_false_iff {cs pre post : List Char}
    (h : cs.flatMap quoteId.escape ++ ['\x22'] = pre ++ '\x22' :: post) :
    endsOdd pre = false ↔ post = [] := by
  induction cs generalizing pre with
  | nil =>
    rcases List.append_eq_cons_iff.1 h.symm with ⟨rfl, hpost⟩ | ⟨rest, -, hrest⟩
    · simpa [endsOdd] using hpost
    · simp at hrest
  | cons c cs ih =>
    rw [List.flatMap_cons, List.append_assoc] at h
    rcases List.append_eq_append_iff.1 h with ⟨rest, rfl, hrest⟩ | ⟨tail, hescape, htail⟩
    · rw [endsOdd_escape_append]
      exact ih hrest
    · cases tail with
      | nil =>
        rw [List.append_nil] at hescape
        rw [← hescape, ← List.append_nil (quoteId.escape c), endsOdd_escape_append]
        exact ih htail.symm
      | cons q tail =>
        obtain ⟨rfl, rfl⟩ := List.cons.inj htail
        simp [eq_of_escape_eq hescape, endsOdd]

/-! ## Ids -/

/-- **An id that begins with an id is this id.** -/
theorem eq_of_quoteId_prefix {name other : String} (h : quoteId name <+: quoteId other) :
    name = other := by
  obtain ⟨rest, hrest⟩ := h
  have hname := first?_quoteId_append name rest
  have hother := first?_quoteId_append other []
  rw [List.append_nil, ← hrest, hname] at hother
  exact quoted.inj (Prod.mk.inj (Option.some.inj hother)).1

/-- **A way to write names as ids**, such that an id shows where it ends. -/
structure Delimits (q : String → List Char) : Prop where
  /-- Backslashes are doubled, then quotes get a backslash, and a quote goes on either side. -/
  eq_passes : ∀ name, q name = '\x22' :: replaceChar '\x22' ['\\', '\x22']
    (replaceChar '\\' ['\\', '\\'] name.toList) ++ ['\x22']
  /-- In front of any text, an id is read as its name, and the text is left as it is. -/
  first?_append : ∀ name rest, first? .outside (q name ++ rest) = some (quoted name, rest)
  /-- From less than an id, nothing is read. -/
  first?_front : ∀ name front rest, q name = front ++ rest → rest ≠ [] →
    first? .outside front = none
  /-- No two names have the same id. -/
  injective : Function.Injective q
  /-- No id begins with the id of another name. -/
  eq_of_prefix : ∀ name other, q name <+: q other → name = other
  /-- Behind the quote that opens an id, a quote after a run of backslashes ends the id exactly
  if the run is even. -/
  even_iff : ∀ name front n rest,
    q name = '\x22' :: (front ++ List.replicate n '\\' ++ '\x22' :: rest) →
    front.getLast? ≠ some '\\' → (Even n ↔ rest = [])

/-- **An id in quotes shows where it ends**, whatever runs of quotes and backslashes its name
has, at its end or elsewhere, and whatever follows. -/
theorem delimits_quoteId : Delimits quoteId where
  eq_passes name := by rw [replaceChar_replaceChar, quoteId]
  first?_append := first?_quoteId_append
  first?_front _ _ _ := first?_eq_none_of_quoteId_eq
  injective name other h := eq_of_quoteId_prefix (h ▸ List.prefix_rfl)
  eq_of_prefix _ _ := eq_of_quoteId_prefix
  even_iff name front n rest h hfront := by
    rw [← endsOdd_run hfront]
    exact endsOdd_eq_false_iff (List.cons.inj h).2

end Lexeme

end TypeAtlas
