import TypeAtlas.Proofs.CharacterData
import TypeAtlas.Diagram.Label

/-!
# Lists of parameters

A list of parameters is a sequence of units that no row break divides: one for each tag of a
parameter, and one for its type and its name (`Label.unitsOf`). A unit is marked if a row ends
after it, and the marks are determined by what is seen of the units (`Label.IsWrapped`): a row
ends after the unit that makes it wider than 40 characters, unless the unit is the last one of all.

There are two ways to come to the marks. The rows of a label are made of the units as a list
(`Label.wrap`). A writer that goes through the parameters, and through the tags of each, needs no
units: it counts what it writes, and looks at its count before each parameter and after each tag
(`Label.writeParameters`). Before it writes the comma after a type and a name, it does not know
whether a row will end there, so what it has written is not yet that of a unit; the invariant is
about what will have been written in the end (`Label.Writer.finish`).

Both write the units in order, with `Label.rowBreak` after the marked ones and nothing else between
them. The break cannot come about in any other way, since no character data has angle brackets, so
a reader who takes each break out is left with the units alone (`Label.exists_isWrapped`).
-/

namespace TypeAtlas.Label

open Markup

/-! ## Units -/

/-- **The text of a tag**: an at sign and its name, and then its arguments between parentheses, if
it has any, each with an equals sign between its name and its value. -/
def shownTag (t : TagUse) : String :=
  "@" ++ t.name
    ++ if t.arguments = [] then ""
      else "(" ++ ", ".intercalate (t.arguments.map fun a => a.name ++ "=" ++ a.value) ++ ")"

theorem display_eq_shownTag (t : TagUse) : t.display = shownTag t := by
  unfold TagUse.display shownTag
  split
  · next hnone => rw [if_pos hnone, String.append_empty]
  · next hsome => rw [if_neg hsome]; simp only [String.append_assoc]

/-- **The units of a list of parameters**: for each parameter in order, one for each of its tags
with a space after it, and one for its type and, after a space, its name, if it has one. A comma and
a space are in the last unit of every parameter but the last. -/
def unitsOf (ps : List Parameter) : List Span :=
  ps.zipIdx.flatMap fun p =>
    p.1.tags.map (fun t => { lead := shownTag t ++ " " })
      ++ [{ lead := p.1.signature.text ++ if p.1.name = none then "" else " "
            name := p.1.name
            trail := if p.2 + 1 < ps.length then ", " else "" }]

namespace Span

/-- **What is seen of a span.** -/
def seen (s : Span) : List Char := s.lead.toList ++ (s.name.getD "").toList ++ s.trail.toList

/-- **What a span is written as**: character data, with the name in bold. -/
def encoded (s : Span) : List Char :=
  Entity.encode s.lead.toList
    ++ s.name.elim [] (fun name => "<b>".toList ++ Entity.encode name.toList ++ "</b>".toList)
    ++ Entity.encode s.trail.toList

theorem length_seen (s : Span) : s.seen.length = s.width := by
  cases hname : s.name <;> simp [seen, width, hname, Nat.add_assoc, String.length_toList]

theorem renderAll_markup (s : Span) : renderAll s.markup = s.encoded := by
  cases hname : s.name <;>
    simp [markup, encoded, hname, renderAll, Markup.render, bold, openMark, closeMark]

/-- The spans of parameters, from the one of a number on. -/
theorem ofParameters_eq_flatMap_zipIdx (ps : List Parameter) (start : Nat) :
    ofParameters ps = (ps.zipIdx start).flatMap fun p =>
      p.1.tags.map ofTag ++ [ofParameter p.1 (if p.2 + 1 < start + ps.length then ", " else "")] := by
  fun_induction ofParameters ps generalizing start with
  | case1 => rfl
  | case2 p => simp
  | case3 p rest hrest ih =>
    have hlength : 0 < rest.length := List.length_pos_iff.2 hrest
    have hcount : start + (rest.length + 1) = start + 1 + rest.length := by omega
    rw [ih (start + 1), List.zipIdx_cons, List.flatMap_cons, List.length_cons, hcount,
      if_pos (show start + 1 < start + 1 + rest.length by omega)]
    simp

/-- **The spans of parameters are their units.** -/
theorem ofParameters_eq_unitsOf (ps : List Parameter) : ofParameters ps = unitsOf ps := by
  have htag : ofTag = fun t => { lead := shownTag t ++ " " } :=
    funext fun t => by rw [ofTag, display_eq_shownTag]
  have hparameter : ∀ (p : Parameter) (trail : String), ofParameter p trail
      = { lead := p.signature.text ++ (if p.name = none then "" else " "), name := p.name, trail } :=
    fun p trail => by cases hname : p.name <;> simp [ofParameter, hname]
  rw [ofParameters_eq_flatMap_zipIdx ps 0, unitsOf, Nat.zero_add, htag]
  simp only [hparameter]

theorem ofParameters_ne_nil (p : Parameter) (rest : List Parameter) :
    ofParameters (p :: rest) ≠ [] := by
  cases rest <;> simp [ofParameters]

end Span

/-! ## Where rows end -/

/-- **The spans after which a row ends**, when the first row has a width already. -/
def mark (width : Nat) : List Span → List (Span × Bool)
  | [] => []
  | s :: rest =>
    if rest ≠ [] ∧ wrapWidth < width + s.width then (s, true) :: mark 0 rest
    else (s, false) :: mark (width + s.width) rest

@[simp] theorem map_fst_mark (width : Nat) (spans : List Span) :
    (mark width spans).map Prod.fst = spans := by
  fun_induction mark width spans with
  | case1 => rfl
  | case2 width s rest _ ih => rw [List.map_cons, ih]
  | case3 width s rest _ ih => rw [List.map_cons, ih]

/-- **One span is marked** if it is not the last and makes its row too wide; the next row starts
with no width. -/
theorem mark_eq_cons {width : Nat} {spans : List Span} {s : Span} {ends : Bool}
    {after : List (Span × Bool)} (h : mark width spans = (s, ends) :: after) :
    (ends = true ↔ after ≠ [] ∧ wrapWidth < width + s.width)
      ∧ ∃ rest, after = mark (if ends then 0 else width + s.width) rest := by
  cases spans with
  | nil => cases h
  | cons t rest =>
    have hnil : ∀ width, mark width rest = [] ↔ rest = [] := fun width => by
      rw [← List.map_eq_nil_iff, map_fst_mark]
    unfold mark at h
    split at h
    · next hends =>
      obtain ⟨⟨rfl, rfl⟩, rfl⟩ : (t = s ∧ true = ends) ∧ mark 0 rest = after := by simpa using h
      exact ⟨by simpa [hnil] using hends, rest, rfl⟩
    · next hends =>
      obtain ⟨⟨rfl, rfl⟩, rfl⟩ : (t = s ∧ false = ends) ∧ mark (width + t.width) rest = after := by
        simpa using h
      exact ⟨by simpa [hnil] using hends, rest, rfl⟩

/-- What is seen of several spans. -/
def seen (units : List (Span × Bool)) : List Char := units.flatMap fun u => u.1.seen

/-- A row starts at the beginning, and after a marked span. -/
def RowStart (before : List (Span × Bool)) : Prop := ∀ u ∈ before.getLast?, u.2 = true

/-- **Spans that are marked where rows end.** After the spans `before`, a row starts, which has
not ended after the spans `run`; the next span is `s`. -/
structure IsWrapped (units : List (Span × Bool)) : Prop where
  /-- The row ends after `s` exactly if that is not the last span of all, and what is seen of the
  row is wider than it may be. -/
  ends_iff : ∀ before run s ends after, units = before ++ run ++ (s, ends) :: after →
    RowStart before → (∀ u ∈ run, u.2 = false) →
      (ends = true ↔ after ≠ [] ∧ 40 < (seen (run ++ [(s, ends)])).length)
  /-- Without `s`, the row is not too wide. -/
  length_le : ∀ before run s ends after, units = before ++ run ++ (s, ends) :: after →
    RowStart before → (∀ u ∈ run, u.2 = false) → (seen run).length ≤ 40

/-- Within a row, the width is that of all that is seen of it. -/
theorem mark_eq_append {width : Nat} {spans : List Span} {s : Span} {ends : Bool}
    {run after : List (Span × Bool)} (h : mark width spans = run ++ (s, ends) :: after)
    (hrun : ∀ u ∈ run, u.2 = false) :
    (ends = true ↔ after ≠ [] ∧ wrapWidth < width + (seen (run ++ [(s, ends)])).length)
      ∧ (width ≤ wrapWidth → width + (seen run).length ≤ wrapWidth) := by
  induction run generalizing width spans with
  | nil =>
    refine ⟨?_, fun hwidth => hwidth⟩
    simpa [seen, Span.length_seen] using (mark_eq_cons h).1
  | cons u run ih =>
    obtain ⟨t, marked⟩ := u
    obtain ⟨hmarked, hmore⟩ := List.forall_mem_cons.1 hrun
    obtain rfl : marked = false := hmarked
    obtain ⟨hends, rest, hrest⟩ := mark_eq_cons h
    obtain ⟨hiff, hle⟩ := ih hrest.symm hmore
    have hwidth : width + t.width ≤ wrapWidth := by simpa using hends
    have hseen : ∀ us, (seen ((t, false) :: us)).length = t.width + (seen us).length := fun us => by
      rw [seen, List.flatMap_cons, List.length_append, Span.length_seen, seen]
    rw [List.cons_append, hseen, hseen, ← Nat.add_assoc, ← Nat.add_assoc]
    exact ⟨hiff, fun _ => hle hwidth⟩

/-- After the end of a row, a new one starts. -/
theorem mark_rowStart {width : Nat} {spans : List Span} {before after : List (Span × Bool)}
    (h : mark width spans = before ++ after) (hbefore : before ≠ []) (hstart : RowStart before) :
    ∃ rest, after = mark 0 rest := by
  induction before generalizing width spans with
  | nil => exact absurd rfl hbefore
  | cons u before ih =>
    obtain ⟨s, ends⟩ := u
    obtain ⟨-, rest, hrest⟩ := mark_eq_cons h
    cases before with
    | nil =>
      obtain rfl : ends = true := hstart (s, ends) rfl
      exact ⟨rest, hrest⟩
    | cons u before =>
      exact ih hrest.symm (List.cons_ne_nil _ _) (by simpa [RowStart] using hstart)

/-- **Marked spans are marked where rows end.** -/
theorem isWrapped_mark (spans : List Span) : IsWrapped (mark 0 spans) := by
  -- from the start of a row on, spans are marked like a list of their own
  have hrow : ∀ before run s ends after, mark 0 spans = before ++ run ++ (s, ends) :: after →
      RowStart before → ∃ rest, mark 0 rest = run ++ (s, ends) :: after := by
    intro before run s ends after h hstart
    rw [List.append_assoc] at h
    cases before with
    | nil => exact ⟨spans, h⟩
    | cons u before =>
      obtain ⟨rest, hrest⟩ := mark_rowStart h (List.cons_ne_nil _ _) hstart
      exact ⟨rest, hrest.symm⟩
  constructor
  · intro before run s ends after h hstart hrun
    obtain ⟨rest, hrest⟩ := hrow before run s ends after h hstart
    simpa [wrapWidth] using (mark_eq_append hrest hrun).1
  · intro before run s ends after h hstart hrun
    obtain ⟨rest, hrest⟩ := hrow before run s ends after h hstart
    simpa [wrapWidth] using (mark_eq_append hrest hrun).2 (Nat.zero_le _)

/-! ## The text of the rows -/

/-- **A row break**: a row of a routine ends, and the next one goes on under the parameters. -/
def rowBreak : List Char :=
  "</td></tr><tr><td></td><td></td><td align=\x27left\x27 valign=\x27top\x27>".toList

/-- The text of a span, with a break if the row ends after it. -/
def unitText (u : Span × Bool) : List Char := u.1.encoded ++ if u.2 then rowBreak else []

/-- **The rows of marked spans**: a row ends after each that is marked. -/
def rowsOf : List (Span × Bool) → List (List Span)
  | [] => [[]]
  | (s, ends) :: rest =>
    match ends, rowsOf rest with
    | false, row :: rows => (s :: row) :: rows
    | _, rows => [s] :: rows

theorem rowsOf_cons_true (s : Span) (rest : List (Span × Bool)) :
    rowsOf ((s, true) :: rest) = [s] :: rowsOf rest := rfl

theorem rowsOf_ne_nil (units : List (Span × Bool)) : rowsOf units ≠ [] := by
  fun_cases rowsOf units <;> exact List.cons_ne_nil _ _

/-- The row goes on after a span that is not marked. -/
theorem rowsOf_cons_false (s : Span) (rest : List (Span × Bool)) :
    rowsOf ((s, false) :: rest) = putFirst s (rowsOf rest) := by
  obtain ⟨row, rows, hrows⟩ := List.exists_cons_of_ne_nil (rowsOf_ne_nil rest)
  simp only [rowsOf, hrows, putFirst]

/-- **The rows of a list of parameters are cut after the marked spans.** -/
theorem wrap_eq_rowsOf_mark (width : Nat) (spans : List Span) :
    wrap width spans = rowsOf (mark width spans) := by
  fun_induction wrap width spans with
  | case1 => rfl
  | case2 width s => simp [mark, rowsOf]
  | case3 width s rest hrest hwide ih => rw [mark, if_pos ⟨hrest, hwide⟩, rowsOf_cons_true, ih]
  | case4 width s rest hrest hwide ih =>
    rw [mark, if_neg (fun h => hwide h.2), rowsOf_cons_false, ih]

/-- The rows of the parameters of a routine. -/
theorem parameterRows_eq_rowsOf (r : Routine) :
    parameterRows r = rowsOf (mark 0 (unitsOf r.parameters)) := by
  rw [parameterRows, Span.ofParameters_eq_unitsOf, wrap_eq_rowsOf_mark]

/-- The text of several rows, with breaks between them. -/
def joinRows : List (List Markup) → List Char
  | [] => []
  | [content] => renderAll content
  | content :: rest => renderAll content ++ rowBreak ++ joinRows rest

theorem wrap_ne_nil (width : Nat) (spans : List Span) : wrap width spans ≠ [] :=
  wrap_eq_rowsOf_mark width spans ▸ rowsOf_ne_nil _

theorem closeRows_cons (row : List Span) {rows : List (List Span)} (h : rows ≠ []) :
    closeRows (row :: rows) = row.flatMap Span.markup :: closeRows rows := by
  obtain ⟨next, rest, rfl⟩ := List.exists_cons_of_ne_nil h
  rfl

theorem length_closeRows {rows : List (List Span)} (h : rows ≠ []) :
    (closeRows rows).length = rows.length := by
  fun_induction closeRows rows with
  | case1 => exact absurd rfl h
  | case2 => rfl
  | case3 row rest hrest ih => rw [List.length_cons, List.length_cons, ih hrest]

theorem closeRows_ne_nil (rows : List (List Span)) : closeRows rows ≠ [] := by
  fun_cases closeRows rows <;> exact List.cons_ne_nil _ _

theorem joinRows_cons (content : List Markup) {contents : List (List Markup)}
    (h : contents ≠ []) :
    joinRows (content :: contents) = renderAll content ++ rowBreak ++ joinRows contents := by
  obtain ⟨next, rest, rfl⟩ := List.exists_cons_of_ne_nil h
  rfl

/-- **A row that ends.** -/
theorem joinRows_closeRows_cons (s : Span) {rows : List (List Span)} (h : rows ≠ []) :
    joinRows (closeRows ([s] :: rows)) = s.encoded ++ rowBreak ++ joinRows (closeRows rows) := by
  rw [closeRows_cons _ h, joinRows_cons _ (closeRows_ne_nil rows), List.flatMap_singleton,
    Span.renderAll_markup]

/-- **A row that goes on.** -/
theorem joinRows_closeRows_putFirst (s : Span) {rows : List (List Span)} (h : rows ≠ []) :
    joinRows (closeRows (putFirst s rows)) = s.encoded ++ joinRows (closeRows rows) := by
  obtain ⟨row, rest, rfl⟩ := List.exists_cons_of_ne_nil h
  cases rest with
  | nil => simp [putFirst, closeRows, joinRows, Span.renderAll_markup]
  | cons next rest =>
    have hrest : next :: rest ≠ [] := List.cons_ne_nil _ _
    rw [putFirst, closeRows_cons _ hrest, closeRows_cons _ hrest,
      joinRows_cons _ (closeRows_ne_nil _), joinRows_cons _ (closeRows_ne_nil _),
      List.flatMap_cons, renderAll_append, Span.renderAll_markup]
    simp only [List.append_assoc]

/-- **The text of rows is that of their spans, with breaks after the marked ones.** -/
theorem joinRows_closeRows_rowsOf (units : List (Span × Bool)) :
    joinRows (closeRows (rowsOf units)) = units.flatMap unitText ++ [')'] := by
  induction units with
  | nil => rfl
  | cons u units ih =>
    obtain ⟨s, ends⟩ := u
    cases ends with
    | false =>
      rw [rowsOf_cons_false, joinRows_closeRows_putFirst s (rowsOf_ne_nil units), ih]
      simp [unitText]
    | true =>
      rw [rowsOf_cons_true, joinRows_closeRows_cons s (rowsOf_ne_nil units), ih]
      simp [unitText]

/-! ## The loop -/

/-- **A writer of parameters**: what it has written, and the width that it has counted of the row
that it is in. -/
structure Writer where
  /-- What has been written. -/
  text : List Char
  /-- The width of the row. -/
  width : Nat

namespace Writer

/-- Something is written, of which so many characters are seen. -/
def add (w : Writer) (written : List Char) (width : Nat) : Writer :=
  ⟨w.text ++ written, w.width + width⟩

/-- **A look at the count**: a row that is too wide ends. -/
def breakRow (w : Writer) : Writer := if 40 < w.width then ⟨w.text ++ rowBreak, 0⟩ else w

/-- A tag of a parameter is written, and a space, and then the row may end. -/
def putTag (w : Writer) (t : TagUse) : Writer :=
  (w.add (Entity.encode (shownTag t).toList ++ [' ']) ((shownTag t).length + 1)).breakRow

/-- The type of a parameter is written, and its name, if it has one. -/
def putType (w : Writer) (p : Parameter) : Writer :=
  let typed := w.add (Entity.encode p.signature.text.toList) p.signature.text.length
  match p.name with
  | none => typed
  | some name =>
    typed.add (" <b>".toList ++ Entity.encode name.toList ++ "</b>".toList) (1 + name.length)

/-- A comma is written before a parameter, unless it is the first one, and then the row may end. -/
def next (w : Writer) (number : Nat) : Writer :=
  (if 0 < number then w.add ", ".toList 2 else w).breakRow

/-- **A parameter is written**, given its number. -/
def putParameter (w : Writer) (p : Parameter × Nat) : Writer :=
  (p.1.tags.foldl putTag (w.next p.2)).putType p.1

/-! ### What will have been written -/

/-- A span is written, and then the row may end. -/
def put (w : Writer) (s : Span) : Writer := (w.add s.encoded s.width).breakRow

/-- **What will have been written in the end**, when these spans are still to come. -/
def finish (w : Writer) (spans : List Span) : List Char :=
  w.text ++ (mark w.width spans).flatMap unitText

theorem finish_singleton (w : Writer) (s : Span) : w.finish [s] = w.text ++ s.encoded := by
  simp [finish, mark, unitText]

/-- **A span that is not the last one** is written, and a row ends after it if it is marked. -/
theorem finish_cons (w : Writer) (s : Span) {rest : List Span} (h : rest ≠ []) :
    w.finish (s :: rest) = (w.put s).finish rest := by
  unfold finish put breakRow add
  by_cases hwide : 40 < w.width + s.width
  · rw [mark, if_pos ⟨h, hwide⟩, if_pos hwide]
    simp [unitText]
  · rw [mark, if_neg (fun hends => hwide hends.2), if_neg hwide]
    simp [unitText]

theorem putTag_eq_put (w : Writer) (t : TagUse) : w.putTag t = w.put (Span.ofTag t) := by
  have hspace : Entity.encodeChar ' ' = [' '] ∧ " ".length = 1 := by decide
  simp [putTag, put, Span.ofTag, display_eq_shownTag, Span.encoded, Span.width, hspace]

/-- **The tags of a parameter** are written one after the other, before what else there is. -/
theorem finish_tags (w : Writer) (tags : List TagUse) {rest : List Span} (h : rest ≠ []) :
    w.finish (tags.map Span.ofTag ++ rest) = (tags.foldl putTag w).finish rest := by
  induction tags generalizing w with
  | nil => rfl
  | cons t tags ih =>
    rw [List.map_cons, List.cons_append, finish_cons w _ (List.append_ne_nil_of_right_ne_nil _ h),
      ih, List.foldl_cons, putTag_eq_put]

/-- The type and the name of a parameter, and what stands after them. -/
theorem add_putType (w : Writer) (p : Parameter) (trail : String) :
    (w.putType p).add (Entity.encode trail.toList) trail.length
      = w.add (Span.ofParameter p trail).encoded (Span.ofParameter p trail).width := by
  have hspace : Entity.encodeChar ' ' = [' '] ∧ " ".length = 1 := by decide
  cases hname : p.name <;>
    simp [putType, add, Span.ofParameter, Span.encoded, Span.width, hname, hspace,
      Nat.add_assoc]

/-- **What the parameters are written as**, from the one of a number on. -/
theorem text_foldl_putParameter (p : Parameter) (rest : List Parameter) (w : Writer)
    (number : Nat) :
    (((p :: rest).zipIdx number).foldl putParameter w).text
      = (w.next number).finish (Span.ofParameters (p :: rest)) := by
  induction rest generalizing p w number with
  | nil =>
    have htype := congrArg text (add_putType (p.tags.foldl putTag (w.next number)) p "")
    rw [String.toList_empty, Entity.encode_nil, add, List.append_nil] at htype
    rw [Span.ofParameters, finish_tags _ _ (List.cons_ne_nil _ _), finish_singleton]
    exact htype
  | cons q rest ih =>
    have hcomma : Entity.encode ", ".toList = ", ".toList := by decide
    -- with the comma that `q` begins with, the unit of the type and name of `p` is complete
    have hnext : (w.putParameter (p, number)).next (number + 1)
        = (p.tags.foldl putTag (w.next number)).put (Span.ofParameter p ", ") := by
      rw [next, if_pos (Nat.succ_pos number), put, ← add_putType, hcomma]
      rfl
    have hunits : Span.ofParameters (p :: q :: rest)
        = p.tags.map Span.ofTag ++ Span.ofParameter p ", " :: Span.ofParameters (q :: rest) := rfl
    rw [List.zipIdx_cons, List.foldl_cons, ih, hnext, hunits,
      finish_tags _ _ (List.cons_ne_nil _ _), finish_cons _ _ (Span.ofParameters_ne_nil q rest)]

end Writer

/-- **The list of parameters as it is written**, between parentheses. -/
def writeParameters (ps : List Parameter) : List Char :=
  (ps.zipIdx.foldl Writer.putParameter ⟨['('], 0⟩).text ++ [')']

/-- **The loop writes the units**, with breaks after the marked ones. -/
theorem writeParameters_eq_mark (ps : List Parameter) :
    writeParameters ps = '(' :: (mark 0 (unitsOf ps)).flatMap unitText ++ [')'] := by
  cases ps with
  | nil => rfl
  | cons p rest =>
    rw [writeParameters, Writer.text_foldl_putParameter, Span.ofParameters_eq_unitsOf]
    rfl

/-! ## The rows of a routine -/

/-- What stands before the parameters of a routine: the cells with its result and its name. -/
def routineOpening (typeName : String) (showModifiers : Bool) (r : Routine) : List Char :=
  openMark "tr" []
    ++ (cell (aligned "right") [text (routineLead showModifiers r),
      if r.isConstructor then bold [text "<constructor>"] else text r.result.text]).render
    ++ (cell (aligned "left")
      [bold [text (if r.isConstructor then typeName else r.name)], space]).render
    ++ openMark "td" (aligned "left")

/-- What stands after them. -/
def routineClosing : List Char := closeMark "td" ++ closeMark "tr"

/-- **A row on which parameters go on comes after a break.** -/
theorem routineClosing_append_render (content : List Markup) :
    routineClosing ++ (row [cell [] [], cell [] [], cell (aligned "left") content]).render
      = rowBreak ++ renderAll content ++ routineClosing := by
  have hbreak : rowBreak = routineClosing ++ openMark "tr" [] ++ (cell [] []).render
      ++ (cell [] []).render ++ openMark "td" (aligned "left") := by decide
  rw [hbreak]
  simp [row, cell, Markup.render, renderAll, routineClosing]

theorem renderAll_append_routineClosing (first : List Markup) (rest : List (List Markup)) :
    renderAll first ++ (routineClosing ++ renderAll (rest.map fun content =>
        row [cell [] [], cell [] [], cell (aligned "left") content]))
      = joinRows (first :: rest) ++ routineClosing := by
  induction rest generalizing first with
  | nil => simp [joinRows, renderAll]
  | cons next rest ih =>
    rw [joinRows_cons _ (List.cons_ne_nil _ _), List.append_assoc _ (joinRows _), ← ih,
      List.map_cons, renderAll, ← List.append_assoc routineClosing,
      routineClosing_append_render]
    simp only [List.append_assoc]

/-- **The text of a routine** has its parameters as the loop writes them. -/
theorem renderAll_routineRows (typeName : String) (showModifiers : Bool) (r : Routine) :
    renderAll (routineRows typeName showModifiers r)
      = routineOpening typeName showModifiers r ++ writeParameters r.parameters
        ++ routineClosing := by
  have hopen : Entity.encodeChar '(' = ['('] := by decide
  rw [writeParameters_eq_mark, List.cons_append, ← joinRows_closeRows_rowsOf,
    ← parameterRows_eq_rowsOf]
  unfold routineRows
  cases hrows : closeRows (parameterRows r) with
  | nil => exact absurd hrows (closeRows_ne_nil _)
  | cons first rest =>
    rw [List.append_assoc, List.cons_append, ← renderAll_append_routineClosing]
    simp [row, cell, Markup.render, renderAll, routineOpening, routineClosing, hopen]

/-! ## Without the breaks -/

/-- What is left of a text if every occurrence of a pattern is taken out, from left to right, and
so many characters first. -/
def withoutFrom (pattern : List Char) : Nat → List Char → List Char
  | _, [] => []
  | skip + 1, _ :: cs => withoutFrom pattern skip cs
  | 0, c :: cs =>
    if pattern.isPrefixOf (c :: cs) then withoutFrom pattern (pattern.length - 1) cs
    else c :: withoutFrom pattern 0 cs

/-- **What is left of a text without a pattern.** -/
def without (pattern cs : List Char) : List Char := withoutFrom pattern 0 cs

theorem withoutFrom_append (pattern cs ds : List Char) :
    withoutFrom pattern cs.length (cs ++ ds) = without pattern ds := by
  induction cs with
  | nil => rfl
  | cons c cs ih => exact ih

/-- An occurrence of the pattern is taken out. -/
theorem without_pattern_append {pattern : List Char} (h : pattern ≠ []) (cs : List Char) :
    without pattern (pattern ++ cs) = without pattern cs := by
  obtain ⟨p, rest, rfl⟩ := List.exists_cons_of_ne_nil h
  have hfound : (p :: rest).isPrefixOf (p :: (rest ++ cs)) = true := by
    rw [List.isPrefixOf_iff_prefix]
    exact ⟨cs, rfl⟩
  rw [List.cons_append, without, withoutFrom, if_pos hfound]
  exact withoutFrom_append (p :: rest) rest cs

/-- A character at which the pattern does not occur is left. -/
theorem without_cons {pattern : List Char} {c : Char} {cs : List Char}
    (h : ¬pattern <+: c :: cs) : without pattern (c :: cs) = c :: without pattern cs := by
  rw [without, withoutFrom, if_neg (by rwa [List.isPrefixOf_iff_prefix])]
  rfl

/-- A row break begins with an angle bracket. -/
theorem not_prefix_rowBreak {c : Char} (h : c ≠ '<') {cs : List Char} :
    ¬rowBreak <+: c :: cs := by
  obtain ⟨rest, hrest⟩ : ∃ rest, rowBreak = '<' :: rest := ⟨_, rfl⟩
  rw [hrest, List.cons_prefix_cons]
  exact fun hbreak => h hbreak.1.symm

/-- **A text that is left as it is**, whatever follows, if row breaks are taken out. -/
def Kept (cs : List Char) : Prop := ∀ ds, without rowBreak (cs ++ ds) = cs ++ without rowBreak ds

theorem Kept.append {cs ds : List Char} (hcs : Kept cs) (hds : Kept ds) : Kept (cs ++ ds) := by
  intro es
  rw [List.append_assoc, hcs, hds, List.append_assoc]

/-- What is no angle bracket begins no break. -/
theorem kept_of_forall {cs : List Char} (h : ∀ c ∈ cs, c ≠ '<') : Kept cs := by
  intro ds
  induction cs with
  | nil => rfl
  | cons c cs ih =>
    obtain ⟨hc, hcs⟩ := List.forall_mem_cons.1 h
    rw [List.cons_append, without_cons (not_prefix_rowBreak hc), ih hcs, List.cons_append]

/-- The marks around a name in bold begin no break either. -/
theorem kept_bold : Kept "<b>".toList ∧ Kept "</b>".toList :=
  ⟨fun _ => rfl, fun _ => rfl⟩

/-- **No break comes about in a span**, whatever text it has. -/
theorem Span.kept_encoded (s : Span) : Kept s.encoded := by
  have hencode : ∀ text : List Char, Kept (Entity.encode text) := fun text =>
    kept_of_forall fun c hc =>
      have ⟨_, _, hc⟩ := List.mem_flatMap.1 hc
      (Entity.encodeChar_ne hc).1
  refine ((hencode _).append ?_).append (hencode _)
  cases s.name with
  | none => exact fun _ => rfl
  | some name => exact (kept_bold.1.append (hencode _)).append kept_bold.2

/-- **Without the breaks, the spans are left.** -/
theorem without_rowBreak (units : List (Span × Bool)) (cs : List Char) :
    without rowBreak (units.flatMap unitText ++ cs)
      = (units.map Prod.fst).flatMap Span.encoded ++ without rowBreak cs := by
  induction units with
  | nil => rfl
  | cons u units ih =>
    rw [List.flatMap_cons, unitText, List.append_assoc, List.append_assoc, u.1.kept_encoded]
    cases u.2 with
    | false => simp [ih]
    | true =>
      rw [if_pos rfl, without_pattern_append (by decide), ih]
      simp

/-! ## The parameters of a routine -/

/-- **The parameters of a routine are written in rows that end when they are too wide.** Between
the parentheses there are its units, and a break follows those after which a row ends; without the
breaks the units are left as they are. -/
theorem exists_isWrapped (r : Routine) :
    ∃ units : List (Span × Bool), units.map Prod.fst = unitsOf r.parameters ∧ IsWrapped units
      ∧ writeParameters r.parameters = '(' :: units.flatMap unitText ++ [')']
      ∧ without rowBreak (writeParameters r.parameters)
          = '(' :: (unitsOf r.parameters).flatMap Span.encoded ++ [')']
      ∧ ∀ typeName showModifiers, renderAll (routineRows typeName showModifiers r)
          = routineOpening typeName showModifiers r ++ writeParameters r.parameters
            ++ routineClosing := by
  have hparentheses : Kept ['('] ∧ Kept [')'] :=
    ⟨kept_of_forall (by simp), kept_of_forall (by simp)⟩
  have hwritten := writeParameters_eq_mark r.parameters
  refine ⟨mark 0 (unitsOf r.parameters), map_fst_mark 0 _, isWrapped_mark _, hwritten, ?_,
    fun typeName showModifiers => renderAll_routineRows typeName showModifiers r⟩
  have hopen := hparentheses.1 ((mark 0 (unitsOf r.parameters)).flatMap unitText ++ [')'])
  have hclose := hparentheses.2 []
  rw [List.append_nil] at hclose
  rw [without_rowBreak, map_fst_mark, hclose] at hopen
  rw [hwritten]
  exact hopen

end TypeAtlas.Label
