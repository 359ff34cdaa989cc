import TypeAtlas.Proofs.MarkupReading

/-!
# Character data is read back

Text that is written as character data comes after whatever is in the buffer, and a reader gets
it back. The reader (`Entity.read?`) goes through the data once: an `&` begins an entity, which
goes on to the next semicolon and stands for one character, by one of four names or by a number,
and any other character stands for itself. It knows the entities and nothing of how they were
chosen, so that a text which looks like an entity must have been written as something else.

That all data is read back says at once that no two texts are written alike and that each `&` in
the data begins an entity, since the reader takes no other
(`Entity.exists_entity_of_readFrom`). A reader of markup reads the same characters, whatever
element the data stands in, and no marks (`Entity.exists_escapes`).
-/

namespace TypeAtlas.Entity

/-! ## The reader -/

/-- **The character that an entity of character data stands for**: by name, one of the four that
mean something in markup, and by number any. The space at which no line breaks has a name in
markup, but not in data. -/
def character? (body : List Char) : Option Char :=
  if body = ['n', 'b', 's', 'p'] then none else decode? body

/-- **Character data is read**, from its beginning on or from within an entity, of which some
characters have been taken, the last one first. -/
def readFrom : Option (List Char) → List Char → Option (List Char)
  | none, [] => some []
  | none, c :: cs => if c = '&' then readFrom (some []) cs else (readFrom none cs).map (c :: ·)
  | some _, [] => none
  | some taken, c :: cs =>
    if c = ';' then
      (character? taken.reverse).bind fun d => (readFrom none cs).map (d :: ·)
    else readFrom (some (c :: taken)) cs

/-- **The text that character data stands for**, if there is one. -/
def read? (cs : List Char) : Option (List Char) := readFrom none cs

/-- An entity that is not finished is none, and neither is one without a character. -/
example : read? "&amp".toList = none ∧ read? "&;".toList = none
    ∧ read? "&#38;amp;".toList = some "&amp;".toList := by decide

/-- In the entities of character data there are letters, digits and number signs. -/
theorem all_of_character? {body : List Char} {c : Char} (h : character? body = some c) :
    body.all isEntityChar = true := by
  unfold character? at h
  split at h
  · cases h
  · exact all_of_decode? h

/-- **An entity is read as the character that it stands for.** -/
theorem readFrom_entity {body : List Char} {c : Char} (h : character? body = some c)
    (cs : List Char) :
    readFrom none ('&' :: body ++ ';' :: cs) = (readFrom none cs).map (c :: ·) := by
  have htake : ∀ rest taken, (∀ d ∈ rest, d ≠ ';') →
      readFrom (some taken) (rest ++ ';' :: cs)
        = readFrom (some (rest.reverse ++ taken)) (';' :: cs) := by
    intro rest
    induction rest with
    | nil => exact fun _ _ => rfl
    | cons d rest ih =>
      intro taken hne
      obtain ⟨hd, hrest⟩ := List.forall_mem_cons.1 hne
      rw [List.cons_append, readFrom, if_neg hd, ih _ hrest, List.reverse_cons,
        List.append_assoc, List.singleton_append]
  have hne : ∀ d ∈ body, d ≠ ';' := by
    rintro d hd rfl
    exact absurd (List.all_eq_true.1 (all_of_character? h) _ hd) (by decide)
  rw [List.cons_append, readFrom, if_pos rfl, htake body [] hne, List.append_nil, readFrom,
    if_pos rfl, List.reverse_reverse, h]
  rfl

/-- Within an entity, the reader goes on to the semicolon that ends it. -/
theorem exists_of_readFrom_some {taken cs text : List Char}
    (h : readFrom (some taken) cs = some text) :
    ∃ body rest c, cs = body ++ ';' :: rest ∧ character? (taken.reverse ++ body) = some c := by
  induction cs generalizing taken with
  | nil => cases h
  | cons d cs ih =>
    rw [readFrom] at h
    split at h
    · next hend =>
      obtain ⟨c, hc, -⟩ := Option.bind_eq_some_iff.1 h
      exact ⟨[], cs, c, by rw [hend]; rfl, by rwa [List.append_nil]⟩
    · obtain ⟨body, rest, c, rfl, hc⟩ := ih h
      refine ⟨d :: body, rest, c, rfl, ?_⟩
      rwa [List.reverse_cons, List.append_assoc, List.singleton_append] at hc

/-- **In data that is read, each `&` begins an entity**, whole and of its own. -/
theorem exists_entity_of_readFrom {state : Option (List Char)} {before after text : List Char}
    (h : readFrom state (before ++ '&' :: after) = some text) :
    ∃ body rest c, after = body ++ ';' :: rest ∧ character? body = some c := by
  induction before generalizing state text with
  | nil =>
    cases state with
    | none =>
      rw [List.nil_append, readFrom, if_pos rfl] at h
      exact exists_of_readFrom_some h
    | some taken =>
      -- the `&` would be part of an entity, and no entity has one
      rw [List.nil_append, readFrom, if_neg (by decide)] at h
      obtain ⟨body, rest, c, -, hc⟩ := exists_of_readFrom_some h
      have hentity := List.all_eq_true.1 (all_of_character? hc) '&' (by simp)
      exact absurd hentity (by decide)
  | cons d before ih =>
    cases state with
    | none =>
      rw [List.cons_append, readFrom] at h
      split at h
      · exact ih h
      · obtain ⟨_, hrest, -⟩ := Option.map_eq_some_iff.1 h
        exact ih hrest
    | some taken =>
      rw [List.cons_append, readFrom] at h
      split at h
      · obtain ⟨_, -, hmore⟩ := Option.bind_eq_some_iff.1 h
        obtain ⟨_, hrest, -⟩ := Option.map_eq_some_iff.1 hmore
        exact ih hrest
      · exact ih h

/-! ## What is written is read -/

/-- **A character is written as itself if it is plain**, and otherwise as an entity of character
data that stands for it. -/
theorem encodeChar_cases_character? (c : Char) :
    (isPlain c = true ∧ encodeChar c = [c])
      ∨ ∃ body, encodeChar c = '&' :: body ++ [';'] ∧ character? body = some c := by
  refine (encodeChar_cases c).imp_right fun ⟨body, heq, hbody⟩ => ⟨body, heq, ?_⟩
  have hname : body ≠ ['n', 'b', 's', 'p'] := by
    rintro rfl
    -- the name stands for a character that is written by its number
    obtain rfl : '\u00a0' = c := Option.some.inj hbody
    exact absurd heq (by decide)
  rw [character?, if_neg hname, hbody]

/-- A character is read back from the character data for it. -/
theorem readFrom_encodeChar (c : Char) (cs : List Char) :
    readFrom none (encodeChar c ++ cs) = (readFrom none cs).map (c :: ·) := by
  obtain ⟨hplain, heq⟩ | ⟨body, heq, hbody⟩ := encodeChar_cases_character? c
  · rw [heq, List.singleton_append, readFrom, if_neg (isPrintable_of_isPlain hplain).2]
  · rw [heq, List.append_assoc, List.singleton_append]
    exact readFrom_entity hbody cs

/-- **Character data is read back as its text.** -/
theorem read?_encode (text : List Char) : read? (encode text) = some text := by
  induction text with
  | nil => rfl
  | cons c text ih =>
    rw [read?, encode_cons, readFrom_encodeChar, ← read?, ih]
    rfl

/-- **Character data is plain but for ampersands.** -/
theorem isPlain_of_mem_encode {text : List Char} {d : Char} (hd : d ∈ encode text)
    (hamp : d ≠ '&') : isPlain d = true := by
  obtain ⟨c, -, hd⟩ := List.mem_flatMap.1 hd
  obtain ⟨hplain, heq⟩ | ⟨body, heq, hbody⟩ := encodeChar_cases c
  · rw [heq, List.mem_singleton] at hd
    exact hd ▸ hplain
  · rw [heq, List.cons_append, List.mem_cons, List.mem_append, List.mem_singleton] at hd
    obtain rfl | hd | rfl := hd
    · exact absurd rfl hamp
    · exact isPlain_of_isEntityChar (List.all_eq_true.1 (all_of_decode? hbody) d hd)
    · decide

/-! ## Ways to write texts -/

/-- The characters that begin and end marks and the values in them. -/
def markChars : List Char := ['<', '>', '\x22', '\x27']

/-- **A way to write texts as character data**, such that a reader gets them back and takes none
of it for markup. -/
structure Escapes (e : String → String) : Prop where
  /-- What is written is read. -/
  read : ∀ text, read? (e text).toList = some text.toList
  /-- It is printable. -/
  isPrintable : ∀ text, ∀ c ∈ (e text).toList, isPrintable c = true
  /-- It has none of the characters of marks. -/
  not_mem_markChars : ∀ text, ∀ c ∈ (e text).toList, c ∉ markChars
  /-- Each ampersand begins an entity. -/
  exists_entity : ∀ text before after, (e text).toList = before ++ '&' :: after →
    ∃ body rest c, after = body ++ ';' :: rest ∧ character? body = some c
  /-- It is written piece by piece. -/
  append : ∀ s t, e (s ++ t) = e s ++ e t

/-- **No two texts are written alike**, since each is read back. -/
theorem Escapes.injective {e : String → String} (h : Escapes e) : Function.Injective e := by
  intro s t heq
  have hread : some s.toList = some t.toList := by rw [← h.read s, ← h.read t, heq]
  exact String.toList_injective (Option.some.inj hread)

/-- Character data is such a way. -/
theorem escapes_encode : Escapes fun text => String.ofList (encode text.toList) where
  read text := by rw [String.toList_ofList, read?_encode]
  isPrintable text := by
    rw [String.toList_ofList]
    exact (encoded_encode _).isPrintable
  not_mem_markChars text c hc := by
    rw [String.toList_ofList] at hc
    intro hmark
    have hplain : markChars.all (fun d => d != '&' && !isPlain d) = true := by decide
    obtain ⟨hamp, hnot⟩ := Bool.and_eq_true_iff.1 (List.all_eq_true.1 hplain c hmark)
    rw [isPlain_of_mem_encode hc (bne_iff_ne.1 hamp)] at hnot
    cases hnot
  exists_entity text before after hdata := by
    rw [String.toList_ofList] at hdata
    have hread := read?_encode text.toList
    rw [hdata] at hread
    exact exists_entity_of_readFrom hread
  append s t := by rw [String.toList_append, encode_append, String.ofList_append]

/-- **Every text is appended as character data that a reader gets back.** What is in the buffer
stays in front of it, no two texts are written alike, and a reader of markup reads the characters
of the text and nothing else, wherever the data stands. -/
theorem exists_escapes :
    ∃ e : String → String, (∀ buffer text, appendTo buffer text = buffer ++ e text)
      ∧ Escapes e ∧ Function.Injective e
      ∧ ∀ text frames content,
          Markup.Reader.run ⟨frames, content, .content⟩ (e text).toList
            = some ⟨frames, (text.toList.map Markup.Node.char).reverse ++ content, .content⟩ := by
  refine ⟨_, fun _ _ => rfl, escapes_encode, escapes_encode.injective, fun text frames content => ?_⟩
  rw [String.toList_ofList]
  exact Markup.run_encode text.toList

end TypeAtlas.Entity
