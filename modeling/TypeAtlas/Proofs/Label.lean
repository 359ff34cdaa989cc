import TypeAtlas.Proofs.CharacterData
import TypeAtlas.Proofs.Lexeme

/-!
# Labels are balanced

The label of a node holds names, tags and signatures as they come. It is still one label
to a reader: character data has no angle brackets (`Entity.encodeChar_ne`), and the marks
of the elements have only those that they begin and end with, since the names and
attributes of elements are written from a few plain words and numbers. Markup with such
marks is `Tame`, the table of every record is (`Label.tame_table`), and what is tame is
balanced (`Markup.Tame.balanced_render`).
-/

namespace TypeAtlas

open Lexeme

namespace Entity

/-- Character data is balanced. -/
theorem balanced_encode (cs : List Char) : Balanced (encode cs) :=
  balanced_of_plain fun _ hd =>
    have ⟨_, _, hd⟩ := List.mem_flatMap.1 hd
    encodeChar_ne hd

end Entity

/-! ## Tame markup -/

namespace Markup

/-- **The mark of an element is plain** if the names in it are names and the values of its
attributes are plain. -/
def PlainMark (name : String) (attributes : List (String × String)) : Prop :=
  Entity.IsName name ∧ ∀ a ∈ attributes, Entity.IsName a.1 ∧ Entity.Plain a.2

instance (name : String) (attributes : List (String × String)) :
    Decidable (PlainMark name attributes) :=
  inferInstanceAs (Decidable (_ ∧ _))

/-- **Tame markup**: character data may be anything, but the marks of elements are
plain. -/
inductive Tame : Markup → Prop
  /-- Character data. -/
  | text (content : String) : Tame (text content)
  /-- A space. -/
  | space : Tame space
  /-- An element around tame markup. -/
  | element {name : String} {attributes : List (String × String)} {content : List Markup} :
    PlainMark name attributes → (∀ m ∈ content, Tame m) →
      Tame (element name attributes content)

theorem mem_attributeText {a : String × String} (hname : Entity.IsName a.1)
    (hvalue : Entity.Plain a.2) {c : Char} (hc : c ∈ attributeText a) :
    c = '\x27' ∨ Entity.isPlain c = true := by
  simp only [attributeText, List.mem_cons, List.mem_append, List.cons_append,
    List.append_assoc, List.not_mem_nil, or_false] at hc
  obtain rfl | hc | rfl | rfl | hc | rfl := hc
  · exact .inr (by decide)
  · exact .inr (List.all_eq_true.1 hname.plain c hc)
  · exact .inr (by decide)
  · exact .inl rfl
  · exact .inr (List.all_eq_true.1 hvalue c hc)
  · exact .inl rfl

/-- Between its angle brackets, a plain mark has plain characters and quotes. -/
theorem PlainMark.mem {name : String} {attributes : List (String × String)}
    (h : PlainMark name attributes) {c : Char}
    (hc : c ∈ name.toList ++ attributes.flatMap attributeText) :
    c = '\x27' ∨ Entity.isPlain c = true := by
  obtain hc | hc := List.mem_append.1 hc
  · exact .inr (List.all_eq_true.1 h.1.plain c hc)
  · obtain ⟨a, ha, hc⟩ := List.mem_flatMap.1 hc
    exact mem_attributeText (h.2 a ha).1 (h.2 a ha).2 hc

/-- A plain mark is closed where it ends. -/
theorem PlainMark.balanced_openMark {name : String} {attributes : List (String × String)}
    (h : PlainMark name attributes) : Balanced (openMark name attributes) := by
  refine .nest (balanced_of_plain fun c hc => ?_) .nil
  obtain rfl | hplain := h.mem hc
  · decide
  · exact Entity.ne_of_isPlain hplain

theorem PlainMark.balanced_closeMark {name : String} {attributes : List (String × String)}
    (h : PlainMark name attributes) : Balanced (closeMark name) :=
  .nest (.plain (by decide) (by decide)
    (balanced_of_plain fun c hc => h.1.plain.ne hc)) .nil

/-- What holds of two texts together if it holds of each holds of several pieces. -/
theorem renderAll_induction {P : List Char → Prop} (hnil : P [])
    (happend : ∀ {cs ds : List Char}, P cs → P ds → P (cs ++ ds)) {content : List Markup}
    (h : ∀ m ∈ content, P m.render) : P (renderAll content) := by
  induction content with
  | nil => exact hnil
  | cons m rest ih =>
    obtain ⟨hm, hrest⟩ := List.forall_mem_cons.1 h
    exact happend hm (ih hrest)

/-- **What tame markup is put together from**: character data and plain marks. What holds of
these, and of two texts together if it holds of each, holds of tame markup. -/
theorem Tame.render_induction {P : List Char → Prop} (hnil : P [])
    (happend : ∀ {cs ds : List Char}, P cs → P ds → P (cs ++ ds))
    (htext : ∀ cs : List Char, P (Entity.encode cs))
    (hspace : P (render .space))
    (hopen : ∀ {name : String} {attributes : List (String × String)},
      PlainMark name attributes → P (openMark name attributes))
    (hclose : ∀ {name : String} {attributes : List (String × String)},
      PlainMark name attributes → P (closeMark name))
    {m : Markup} (h : m.Tame) : P m.render := by
  induction h with
  | text content => exact htext content.toList
  | space => exact hspace
  | element hmark _ ih =>
    exact happend (happend (hopen hmark) (renderAll_induction hnil happend ih)) (hclose hmark)

/-- **Tame markup is balanced.** -/
theorem Tame.balanced_render {m : Markup} (h : m.Tame) : Balanced m.render :=
  h.render_induction .nil .append Entity.balanced_encode (balanced_of_plain (by simp [render]))
    (fun hmark => hmark.balanced_openMark) fun hmark => hmark.balanced_closeMark

@[simp] theorem tame_text (content : String) : (text content).Tame := .text content

@[simp] theorem tame_space : space.Tame := .space

@[simp] theorem tame_element {name : String} {attributes : List (String × String)}
    {content : List Markup} :
    (element name attributes content).Tame
      ↔ PlainMark name attributes ∧ ∀ m ∈ content, m.Tame := by
  constructor
  · rintro (_ | _ | ⟨hmark, hcontent⟩)
    exact ⟨hmark, hcontent⟩
  · rintro ⟨hmark, hcontent⟩
    exact .element hmark hcontent

@[simp] theorem tame_bold {content : List Markup} :
    (bold content).Tame ↔ ∀ m ∈ content, m.Tame := by
  rw [bold, tame_element, and_iff_right (by decide)]

@[simp] theorem tame_row {cells : List Markup} :
    (row cells).Tame ↔ ∀ m ∈ cells, m.Tame := by
  rw [row, tame_element, and_iff_right (by decide)]

@[simp] theorem tame_cell {attributes : List (String × String)} {content : List Markup} :
    (cell attributes content).Tame
      ↔ PlainMark "td" attributes ∧ ∀ m ∈ content, m.Tame :=
  tame_element

@[simp] theorem tame_sized {points : String} {content : List Markup} :
    (sized points content).Tame
      ↔ PlainMark "font" [("point-size", points)] ∧ ∀ m ∈ content, m.Tame :=
  tame_element

end Markup

/-! ## The table of a record -/

theorem Colour.plain_text (c : Colour) : Entity.Plain c.text := by
  have hdigit : ∀ n < 16, Entity.isPlain (Nat.digitChar n) = true := by decide
  have hchannel : ∀ x : UInt8, (channelText x).all Entity.isPlain = true := by
    intro x
    have hlt := x.toNat_lt
    simp [channelText, hdigit (x.toNat / 16) (by omega), hdigit (x.toNat % 16) (by omega)]
  have hsign : Entity.isPlain '#' = true := by decide
  simp [Entity.Plain, text, hchannel, hsign]

namespace Label

open Markup

@[simp] theorem plainMark_cell : PlainMark "td" [] := by decide

@[simp] theorem plainMark_left : PlainMark "td" (aligned "left") := by decide

@[simp] theorem plainMark_right : PlainMark "td" (aligned "right") := by decide

@[simp] theorem plainMark_center : PlainMark "td" (aligned "center") := by decide

theorem tame_heading (title : String) (colour : Colour) : (heading title colour).Tame := by
  have hmark : PlainMark "td" [("colspan", "3"), ("bgcolor", colour.text)] := by
    refine ⟨by decide, ?_⟩
    simp only [List.forall_mem_cons, List.not_mem_nil]
    exact ⟨by decide, ⟨by decide, colour.plain_text⟩, by simp⟩
  have hsize : PlainMark "font" [("point-size", "12")] := by decide
  simp [heading, hmark, hsize]

theorem tame_ownSection {title : String} {colour : Colour} {rows : List Markup}
    (h : ∀ row ∈ rows, row.Tame) : (ownSection title colour rows).Tame := by
  have hcell : PlainMark "td" [("cellpadding", "0")] := by decide
  have htable : PlainMark "table" [("border", "0"), ("cellborder", "0")] := by decide
  simpa [ownSection, hcell, htable, tame_heading] using h

theorem tame_tagRow (t : TagUse) : (tagRow t).Tame := by
  simp [tagRow]

theorem tame_attributeRow (showModifiers : Bool) (a : Attribute) :
    (attributeRow showModifiers a).Tame := by
  simp [attributeRow]

theorem tame_markup (s : Span) : ∀ m ∈ s.markup, m.Tame := by
  intro m hm
  simp only [Span.markup, List.mem_cons, List.mem_append, List.mem_map, List.cons_append,
    List.not_mem_nil, or_false] at hm
  obtain rfl | ⟨name, -, rfl⟩ | rfl := hm <;> simp

theorem tame_closeRows (rows : List (List Span)) :
    ∀ content ∈ closeRows rows, ∀ m ∈ content, m.Tame := by
  have hrow : ∀ spans : List Span, ∀ m ∈ spans.flatMap Span.markup, m.Tame := by
    intro spans m hm
    obtain ⟨s, -, hm⟩ := List.mem_flatMap.1 hm
    exact tame_markup s m hm
  induction rows with
  | nil => simp [closeRows]
  | cons spans rest ih =>
    cases rest with
    | nil =>
      simp only [closeRows, List.forall_mem_singleton, List.forall_mem_append]
      exact ⟨hrow spans, tame_text ")"⟩
    | cons next rest =>
      simp only [closeRows, List.forall_mem_cons]
      exact ⟨hrow spans, ih⟩

theorem tame_routineRows (typeName : String) (showModifiers : Bool) (r : Routine) :
    ∀ m ∈ routineRows typeName showModifiers r, m.Tame := by
  have hrows := tame_closeRows (parameterRows r)
  have hresult : Tame (if r.isConstructor then bold [text "<constructor>"]
      else text r.result.text) := by
    split <;> simp
  -- the first row has the result and the name before its parameters, the others do not
  cases hclose : closeRows (parameterRows r) with
  | nil => simp [routineRows, hclose]
  | cons first rest =>
    rw [hclose, List.forall_mem_cons] at hrows
    simp only [routineRows, hclose, List.forall_mem_cons]
    constructor
    · simpa [hresult] using hrows.1
    · intro m hm
      obtain ⟨content, hcontent, rfl⟩ := List.mem_map.1 hm
      simpa using hrows.2 content hcontent

theorem tame_titleRows (r : TypeRecord) : ∀ m ∈ titleRows r, m.Tame := by
  have hsize : PlainMark "font" [("point-size", "24")] := by decide
  intro m hm
  simp only [titleRows, List.mem_cons, List.mem_append, List.mem_map, List.cons_append,
    List.not_mem_nil, or_false] at hm
  obtain rfl | ⟨package, -, rfl⟩ | rfl := hm <;> simp [hsize]

theorem tame_tagSection (colour : Colour) (r : TypeRecord) :
    ∀ m ∈ tagSection colour r, m.Tame := by
  unfold tagSection
  split
  · simp
  · rw [List.forall_mem_cons]
    refine ⟨tame_heading _ _, fun m hm => ?_⟩
    obtain ⟨t, -, rfl⟩ := List.mem_map.1 hm
    exact tame_tagRow t

theorem tame_attributeSection (scan : ScanSettings) (diagram : DiagramSettings)
    (colour : Colour) (r : TypeRecord) :
    ∀ m ∈ attributeSection scan diagram colour r, m.Tame := by
  unfold attributeSection
  split
  · rw [List.forall_mem_singleton]
    refine tame_ownSection fun m hm => ?_
    obtain ⟨a, -, rfl⟩ := List.mem_map.1 hm
    exact tame_attributeRow _ a
  · simp

theorem tame_routineSection (scan : ScanSettings) (diagram : DiagramSettings)
    (colour : Colour) (r : TypeRecord) :
    ∀ m ∈ routineSection scan diagram colour r, m.Tame := by
  dsimp only [routineSection]
  split
  · rw [List.forall_mem_singleton]
    refine tame_ownSection fun m hm => ?_
    obtain ⟨x, -, hm⟩ := List.mem_flatMap.1 hm
    exact tame_routineRows _ _ x m hm
  · simp

/-- **The table of every record is tame**, whatever its names, tags and signatures. -/
theorem tame_table (scan : ScanSettings) (diagram : DiagramSettings) (colour : Colour)
    (r : TypeRecord) : (table scan diagram colour r).Tame := by
  refine .element (by decide) fun m hm => ?_
  simp only [List.mem_append] at hm
  obtain ((hm | hm) | hm) | hm := hm
  · exact tame_titleRows r m hm
  · exact tame_tagSection colour r m hm
  · exact tame_attributeSection scan diagram colour r m hm
  · exact tame_routineSection scan diagram colour r m hm

/-- **A label is one lexeme**, with the table of its record between angle brackets. -/
theorem lex_render (scan : ScanSettings) (diagram : DiagramSettings) (colour : Colour)
    (r : TypeRecord) :
    lex (render scan diagram colour r) = some [.label (table scan diagram colour r).render] :=
  lex_label (tame_table scan diagram colour r).balanced_render

end Label

end TypeAtlas
