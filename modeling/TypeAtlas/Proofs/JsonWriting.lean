import TypeAtlas.Json.Writer
import TypeAtlas.Proofs.JsonDocument
import TypeAtlas.Record.Codec

/-!
# What is written is a document

A value that holds no number can be written as JSON, and the text is a document with this
value (`document_write`). Texts may hold any characters, as those that a text cannot hold
are escaped (`charSpelling_writeChar`). Numbers are left out, since a number that is not
finite has no text.

A list of texts can also be laid out over several lines. White space stands between its tokens
then, and that takes nothing from its being a document (`document_writeLines`).

Encoded records hold no numbers, so every list of records can be written, and so can
every map of them.
-/

namespace TypeAtlas.Json

/-! ## Texts -/

/-- Two digits after two zeros are the code of a control character. -/
theorem isCode_twoHexDigits {n : Nat} (h : n < 0x20) :
    IsCode ('0' :: '0' :: twoHexDigits n) n := by
  have hvalue : ∀ n < 0x20, hexNumber? 0 ('0' :: '0' :: twoHexDigits n) = some n := by decide
  exact ⟨rfl, hvalue n h⟩

/-- **A character is written as one of its spellings.** -/
theorem charSpelling_writeChar (c : Char) : CharSpelling (writeChar c) c := by
  unfold writeChar
  -- the seven characters that a backslash and a letter stand for come first
  iterate 7
    split
    · next h =>
      subst h
      exact .short rfl
  next hquote hbackslash _ _ _ _ _ =>
    split
    · next hcontrol =>
      have hcode := CharSpelling.code (isCode_twoHexDigits hcontrol)
        (fun hhigh => by have := hhigh.1; omega) (fun hlow => by have := hlow.1; omega)
      rwa [Char.ofNat_toNat] at hcode
    · next hcontrol => exact .plain hquote hbackslash (Nat.not_lt.1 hcontrol)

theorem textSpelling_writeChars (cs : List Char) : TextSpelling (cs.flatMap writeChar) cs := by
  induction cs with
  | nil => exact .nil
  | cons c cs ih => exact .cons (charSpelling_writeChar c) ih

theorem tokenSpelling_writeText (s : String) : TokenSpelling (writeText s) (.atom (.text s)) := by
  simpa [writeText] using TokenSpelling.text (textSpelling_writeChars s.toList)

/-! ## Tokens -/

/-- **Characters write tokens**, whatever comes behind both. -/
def Writes (w : List Char) (ts : List Token) : Prop :=
  ∀ ⦃cs more⦄, Lexes more cs → Lexes (ts ++ more) (w ++ cs)

/-- A token may have white space in front of it. -/
theorem Writes.spaced {space w : List Char} {token : Token}
    (hspace : ∀ c ∈ space, isSpace c = true) (h : TokenSpelling w token) :
    Writes (space ++ w) [token] := by
  intro cs more hmore
  rw [List.append_assoc]
  exact .cons hspace h hmore

theorem Writes.token {w : List Char} {token : Token} (h : TokenSpelling w token) :
    Writes w [token] :=
  @Writes.spaced [] _ _ nofun h

theorem Writes.append {v w : List Char} {ts us : List Token} (h : Writes v ts)
    (hs : Writes w us) : Writes (v ++ w) (ts ++ us) := by
  intro cs more hmore
  rw [List.append_assoc, List.append_assoc]
  exact h (hs hmore)

theorem Writes.cons {w : List Char} {ts : List Token} {c : Char} {token : Token}
    (h : TokenSpelling [c] token) (hs : Writes w ts) : Writes (c :: w) (token :: ts) :=
  (Writes.token h).append hs

/-- The parts of a list or a map with commas between them, and what closes it. -/
def enclosed (close : Char) : List (List Char) → List Char
  | [] => [close]
  | [w] => w ++ [close]
  | w :: rest => w ++ ',' :: enclosed close rest

theorem writeItems_eq (items : List Data) :
    writeItems items = enclosed ']' (items.map writeData) := by
  induction items with
  | nil => simp [writeItems, enclosed]
  | cons item rest ih =>
    cases rest with
    | nil => simp [writeItems, enclosed]
    | cons next rest => simp [writeItems, ih, enclosed]

/-- An entry of a map. -/
def writeEntry (entry : String × Data) : List Char :=
  writeText entry.1 ++ ':' :: writeData entry.2

theorem writeEntries_eq (entries : List (String × Data)) :
    writeEntries entries = enclosed '\x7d' (entries.map writeEntry) := by
  induction entries with
  | nil => simp [writeEntries, enclosed]
  | cons entry rest ih =>
    obtain ⟨key, value⟩ := entry
    cases rest with
    | nil => simp [writeEntries, enclosed, writeEntry]
    | cons next rest => simp [writeEntries, ih, enclosed, writeEntry]

/-- **Parts with commas between them write** the tokens of the parts and the commas. -/
theorem Writes.enclosed {close : Char} {token : Token} (hclose : TokenSpelling [close] token)
    {ws : List (List Char)} {tss : List (List Token)} (h : List.Forall₂ Writes ws tss) :
    Writes (enclosed close ws) (commas tss ++ [token]) := by
  induction h with
  | nil => exact .token hclose
  | @cons w ts ws tss hfirst hrest ih =>
    cases hrest with
    | nil => simpa [Json.enclosed, commas] using hfirst.append (.token hclose)
    | cons hnext hrest => simpa [Json.enclosed, commas] using hfirst.append (.cons .comma ih)

/-! ## Values -/

/-- **A value without numbers**, with at most a number of lists and maps inside one
another. -/
inductive Numberless : Nat → Data → Prop
  | null {n : Nat} : Numberless n .null
  | bool {n : Nat} (value : Bool) : Numberless n (.bool value)
  | text {n : Nat} (value : String) : Numberless n (.text value)
  | list {n : Nat} {items : List Data} (h : ∀ item ∈ items, Numberless n item) :
      Numberless (n + 1) (.list items)
  | map {n : Nat} {entries : List (String × Data)}
      (hkeys : entries.Pairwise fun a b => a.1 < b.1)
      (h : ∀ entry ∈ entries, Numberless n entry.2) : Numberless (n + 1) (.map entries)

/-- What each member of a list has one of, the list has a list of. -/
theorem exists_forall₂ {α β : Type} {R : α → β → Prop} {xs : List α}
    (h : ∀ x ∈ xs, ∃ y, R x y) : ∃ ys, List.Forall₂ R xs ys := by
  induction xs with
  | nil => exact ⟨[], .nil⟩
  | cons x xs ih =>
    obtain ⟨y, hy⟩ := h x List.mem_cons_self
    obtain ⟨ys, hys⟩ := ih fun other hother => h other (List.mem_cons_of_mem x hother)
    exact ⟨y :: ys, .cons hy hys⟩

/-- **A value without numbers is written as tokens of its own.** -/
theorem Numberless.exists_writes {n : Nat} {d : Data} (h : Numberless n d) :
    ∃ ts, Phrase n d ts ∧ Writes (writeData d) ts := by
  induction h with
  | @null n => exact ⟨_, .of_atom n _, by rw [writeData]; exact .token .null⟩
  | @bool n value =>
    refine ⟨_, .of_atom n _, ?_⟩
    cases value <;> rw [writeData]
    · exact .token .falsehood
    · exact .token .truth
  | @text n value =>
    exact ⟨_, .of_atom n _, by rw [writeData]; exact .token (tokenSpelling_writeText value)⟩
  | @list n items _ ih =>
    obtain ⟨tss, htss⟩ := exists_forall₂ ih
    refine ⟨_, Nested.list (htss.imp fun _ _ => And.left), ?_⟩
    rw [writeData, writeItems_eq]
    refine .cons .openList (.enclosed .closeList (List.forall₂_map_left_iff.2 ?_))
    exact htss.imp fun _ _ => And.right
  | @map n entries hkeys _ ih =>
    have hentry : ∀ entry ∈ entries, ∃ ts, EntryTokens (Phrase n) entry ts
        ∧ Writes (writeEntry entry) ts := fun entry hentry => by
      obtain ⟨ts, hphrase, hwrites⟩ := ih entry hentry
      exact ⟨_, ⟨ts, rfl, hphrase⟩,
        (Writes.token (tokenSpelling_writeText entry.1)).append (.cons .colon hwrites)⟩
    obtain ⟨tss, htss⟩ := exists_forall₂ hentry
    have hphrase := Nested.map (htss.imp fun _ _ => And.left)
    rw [Entries.ofList_eq_self hkeys] at hphrase
    refine ⟨_, hphrase, ?_⟩
    rw [writeData, writeEntries_eq]
    refine .cons .openMap (.enclosed .closeMap (List.forall₂_map_left_iff.2 ?_))
    exact htss.imp fun _ _ => And.right

/-- **The text of a value without numbers is a document** with this value. -/
theorem document_write {d : Data} (h : Numberless Reader.depthLimit d) : Document d (write d) := by
  obtain ⟨ts, hphrase, hwrites⟩ := h.exists_writes
  have hlexes := hwrites (@Lexes.nil [] nofun)
  rw [List.append_nil, List.append_nil] at hlexes
  exact ⟨ts, by rwa [write, String.toList_ofList], hphrase⟩

/-! ## Lists over several lines -/

/-- The texts of a list as tokens, one sequence for each. -/
def textTokens (texts : List String) : List (List Token) :=
  texts.map fun s => [.atom (.text s)]

/-- **The lines of a list of texts** write its texts, the commas between them and its end. -/
theorem writes_writeTextLines (texts : List String) :
    Writes (writeTextLines texts) (commas (textTokens texts) ++ [.closeList]) := by
  have hclose : Writes ['\n', ']'] [.closeList] :=
    @Writes.spaced ['\n'] _ _ (List.all_eq_true.1 rfl) .closeList
  have htext : ∀ s, Writes ('\n' :: ' ' :: ' ' :: writeText s) [.atom (.text s)] := fun s =>
    @Writes.spaced ['\n', ' ', ' '] _ _ (List.all_eq_true.1 rfl) (tokenSpelling_writeText s)
  induction texts with
  | nil => exact hclose
  | cons s rest ih =>
    cases rest with
    | nil => exact (htext s).append hclose
    | cons next rest =>
      rw [writeTextLines]
      · exact (htext s).append (.cons .comma ih)
      · simp

theorem writes_writeLines (texts : List String) :
    Writes (writeLines texts).toList
      (.openList :: (commas (textTokens texts) ++ [.closeList])) := by
  cases texts with
  | nil => exact .cons .openList (.token .closeList)
  | cons s rest =>
    rw [writeLines, String.toList_ofList]
    · exact .cons .openList (writes_writeTextLines (s :: rest))
    · simp

/-- The tokens are those of the list. -/
theorem phrase_textTokens (n : Nat) (texts : List String) :
    Phrase (n + 1) (.ofTexts texts) (.openList :: (commas (textTokens texts) ++ [.closeList])) := by
  refine Nested.list ?_
  rw [textTokens, List.forall₂_map_left_iff, List.forall₂_map_right_iff, List.forall₂_same]
  exact fun s _ => .of_atom n (.text s)

/-- A list of texts over several lines is a document, with white space behind it too. -/
theorem document_writeLines_append (texts : List String) (space : String)
    (hspace : ∀ c ∈ space.toList, isSpace c = true) :
    Document (.ofTexts texts) (writeLines texts ++ space) := by
  have hlexes := writes_writeLines texts (.nil hspace)
  rw [List.append_nil] at hlexes
  exact ⟨_, by rwa [String.toList_append], phrase_textTokens _ texts⟩

/-- **A list of texts over several lines is a document.** -/
theorem document_writeLines (texts : List String) : Document (.ofTexts texts) (writeLines texts) := by
  have hdocument := document_writeLines_append texts "" (List.all_eq_true.1 rfl)
  rwa [String.append_empty] at hdocument

/-! ## Records -/

theorem Numberless.ofFields {n : Nat} {fields : List (String × Data)}
    (h : ∀ field ∈ fields, Numberless n field.2) : Numberless (n + 1) (.ofFields fields) :=
  .map (Entries.pairwise_ofList fields) fun field hfield =>
    h field (Entries.mem_of_mem_ofList hfield)

theorem Numberless.ofTexts {n : Nat} (texts : List String) : Numberless (n + 1) (.ofTexts texts) :=
  .list (List.forall_mem_map.2 fun s _ => .text s)

theorem Numberless.ofOption {n : Nat} (text : Option String) :
    Numberless n (.ofOption .text text) := by
  cases text with
  | none => exact .null
  | some s => exact .text s

/-- The items of a list that are encoded one by one. -/
theorem Numberless.listOf {α : Type} {n : Nat} {encode : α → Data} (xs : List α)
    (h : ∀ x, Numberless n (encode x)) : Numberless (n + 1) (.list (xs.map encode)) :=
  .list (List.forall_mem_map.2 fun x _ => h x)

end TypeAtlas.Json

namespace TypeAtlas

open Json

theorem TagArgument.numberless_encode (n : Nat) (a : TagArgument) :
    Numberless (n + 1) a.encode :=
  .ofFields (by simp [Numberless.text])

theorem TagUse.numberless_encode (n : Nat) (t : TagUse) : Numberless (n + 3) t.encode :=
  .ofFields (by simp [Numberless.text, Numberless.listOf, TagArgument.numberless_encode])

theorem TagUse.numberless_encodeAll (n : Nat) (tags : List TagUse) :
    Numberless (n + 4) (encodeAll tags) :=
  .listOf tags (numberless_encode n)

theorem Modifier.numberless_encodeAll (n : Nat) (modifiers : List Modifier) :
    Numberless (n + 1) (encodeAll modifiers) :=
  .ofTexts _

theorem Attribute.numberless_encode (n : Nat) (a : Attribute) : Numberless (n + 5) a.encode :=
  .ofFields (by simp [Numberless.text, TagUse.numberless_encodeAll, Modifier.numberless_encodeAll])

theorem Parameter.numberless_encode (n : Nat) (p : Parameter) : Numberless (n + 5) p.encode :=
  .ofFields (by simp [Numberless.text, Numberless.ofOption, TagUse.numberless_encodeAll])

theorem Routine.numberless_encode (n : Nat) (r : Routine) : Numberless (n + 7) r.encode :=
  .ofFields (by simp [Numberless.text, Numberless.listOf, Parameter.numberless_encode,
    TagUse.numberless_encodeAll, Modifier.numberless_encodeAll])

/-- **An encoded record holds no numbers.** -/
theorem TypeRecord.numberless_encode (n : Nat) (r : TypeRecord) : Numberless (n + 9) r.encode :=
  .ofFields (by simp [Numberless.text, Numberless.bool, Numberless.ofOption, Numberless.ofTexts,
    Numberless.listOf, Attribute.numberless_encode, Routine.numberless_encode,
    TagUse.numberless_encodeAll, Modifier.numberless_encodeAll])

end TypeAtlas
