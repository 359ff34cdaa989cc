import TypeAtlas.Proofs.Lexeme

/-!
# The outline of a document

The lexemes of a document stand in lines. Header lines come first, and each begins with a
character that is neither a quote nor an angle bracket nor the end of a line. Then follow
the lines of the nodes, each of which begins with the id of its node and ends with a
label, an empty line, the lines of the edges, which are indented, and a closing brace.

An outline is what a reader gets out of such lines, and no two outlines have the same
lexemes (`Outline.lexemes_injective`): a line ends at the first end of a line that is a
lexeme of its own, and its first lexeme tells what kind of line it is. So a text has at
most one outline.
-/

namespace TypeAtlas

open Lexeme

/-- **A line of the header.** -/
structure HeaderLine where
  /-- The character that it begins with. -/
  first : Char
  /-- The lexemes after it. -/
  rest : List Lexeme
  first_ne : first ≠ '\n'
  unbroken : mark '\n' ∉ rest

/-- **The line of a node.** -/
structure NodeLine where
  /-- The name of the node. -/
  id : String
  /-- What stands between the id and the label. -/
  look : List Lexeme
  /-- The label, without its angle brackets. -/
  label : List Char
  unbroken : mark '\n' ∉ look

/-- **The line of an edge.** -/
structure EdgeLine where
  /-- The name of the node at the tail. -/
  tail : String
  /-- The name of the node at the head. -/
  head : String
  /-- What stands between the brackets. -/
  attributes : List Lexeme
  unbroken : mark '\n' ∉ attributes

/-- The lexemes of a header line, without its end. -/
def HeaderLine.body (l : HeaderLine) : List Lexeme := mark l.first :: l.rest

/-- The lexemes of the line of a node, without its end. -/
def NodeLine.body (l : NodeLine) : List Lexeme :=
  quoted l.id :: l.look ++ [.label l.label, mark ']', mark ';']

/-- The lexemes of the line of an edge, without its end. -/
def EdgeLine.body (l : EdgeLine) : List Lexeme :=
  mark ' ' :: mark ' ' :: quoted l.tail :: mark ' ' :: mark '-' :: mark '>' :: mark ' '
    :: quoted l.head :: mark ' ' :: mark '[' :: l.attributes ++ [mark ']']

/-- The lexemes of lines, one after the other. -/
def lines {α : Type} (body : α → List Lexeme) (xs : List α) : List Lexeme :=
  xs.flatMap fun x => body x ++ [mark '\n']

@[simp] theorem lines_nil {α : Type} (body : α → List Lexeme) : lines body [] = [] := rfl

@[simp] theorem lines_cons {α : Type} (body : α → List Lexeme) (x : α) (xs : List α) :
    lines body (x :: xs) = body x ++ [mark '\n'] ++ lines body xs := rfl

/-- **The outline of a document.** -/
structure Outline where
  /-- The lines before the nodes. -/
  header : List HeaderLine
  /-- The lines of the nodes. -/
  nodes : List NodeLine
  /-- The lines of the edges. -/
  edges : List EdgeLine

/-- **The lexemes of an outline.** -/
def Outline.lexemes (o : Outline) : List Lexeme :=
  lines HeaderLine.body o.header ++ lines NodeLine.body o.nodes
    ++ mark '\n' :: lines EdgeLine.body o.edges ++ [mark '\x7d']

/-! ## Lines of one kind -/

/-- A line ends at the first end of a line. -/
theorem unbroken_append_inj {xs ys r s : List Lexeme} (hxs : mark '\n' ∉ xs)
    (hys : mark '\n' ∉ ys) (h : xs ++ mark '\n' :: r = ys ++ mark '\n' :: s) :
    xs = ys ∧ r = s := by
  induction xs generalizing ys with
  | nil =>
    cases ys with
    | nil => exact ⟨rfl, (List.cons.inj h).2⟩
    | cons y ys => exact absurd ((List.cons.inj h).1 ▸ List.mem_cons_self) hys
  | cons x xs ih =>
    cases ys with
    | nil => exact absurd ((List.cons.inj h).1 ▸ List.mem_cons_self) hxs
    | cons y ys =>
      obtain ⟨rfl, hrest⟩ := List.cons.inj h
      obtain ⟨rfl, rfl⟩ := ih (fun hm => hxs (List.mem_cons_of_mem _ hm))
        (fun hm => hys (List.mem_cons_of_mem _ hm)) hrest
      exact ⟨rfl, rfl⟩

/-- **Lines of one kind end where a lexeme begins none of them**, and what stands before
determines them. -/
theorem lines_append_inj {α : Type} {body : α → List Lexeme} {opens : Lexeme → Prop}
    (hinj : ∀ {x y}, body x = body y → x = y) (hunbroken : ∀ x, mark '\n' ∉ body x)
    (hopens : ∀ x, ∃ l ls, body x = l :: ls ∧ opens l) {xs ys : List α}
    {t u : List Lexeme} (ht : ∀ l ∈ t.head?, ¬opens l) (hu : ∀ l ∈ u.head?, ¬opens l)
    (h : lines body xs ++ t = lines body ys ++ u) : xs = ys ∧ t = u := by
  have hcons : ∀ x (zs : List α) (v : List Lexeme),
      lines body (x :: zs) ++ v = body x ++ mark '\n' :: (lines body zs ++ v) := by
    simp
  -- a line on one side only would begin with the lexeme that ends the lines on the other
  have hends : ∀ x (zs : List α) (v w : List Lexeme), (∀ l ∈ w.head?, ¬opens l) →
      lines body (x :: zs) ++ v ≠ w := by
    intro x zs v w hw heq
    obtain ⟨l, ls, hbody, hl⟩ := hopens x
    rw [hcons, hbody, List.cons_append] at heq
    exact hw l (by rw [← heq]; exact rfl) hl
  induction xs generalizing ys with
  | nil =>
    cases ys with
    | nil => exact ⟨rfl, h⟩
    | cons y ys => exact absurd h.symm (hends y ys u t ht)
  | cons x xs ih =>
    cases ys with
    | nil => exact absurd h (hends x xs t u hu)
    | cons y ys =>
      rw [hcons, hcons] at h
      obtain ⟨hbody, hrest⟩ := unbroken_append_inj (hunbroken x) (hunbroken y) h
      obtain ⟨rfl, rfl⟩ := ih hrest
      exact ⟨by rw [hinj hbody], rfl⟩

namespace HeaderLine

theorem body_injective {k l : HeaderLine} (h : k.body = l.body) : k = l := by
  cases k
  cases l
  simpa [body] using h

theorem unbroken_body (l : HeaderLine) : mark '\n' ∉ l.body := by
  simp [body, l.first_ne.symm, l.unbroken]

/-- What a header line begins with. -/
def Opens (l : Lexeme) : Prop := ∃ c, c ≠ '\n' ∧ l = mark c

theorem opens_body (l : HeaderLine) : ∃ k ks, l.body = k :: ks ∧ Opens k :=
  ⟨mark l.first, l.rest, rfl, l.first, l.first_ne, rfl⟩

end HeaderLine

namespace NodeLine

theorem body_injective {k l : NodeLine} (h : k.body = l.body) : k = l := by
  cases k
  cases l
  obtain ⟨hid, hrest⟩ := List.cons.inj h
  obtain ⟨hlook, hend⟩ := List.append_inj' hrest rfl
  simp_all

theorem unbroken_body (l : NodeLine) : mark '\n' ∉ l.body := by
  simp [body, l.unbroken]

/-- What the line of a node begins with. -/
def Opens (l : Lexeme) : Prop := ∃ name, l = quoted name

theorem opens_body (l : NodeLine) : ∃ k ks, l.body = k :: ks ∧ Opens k :=
  ⟨quoted l.id, _, rfl, l.id, rfl⟩

end NodeLine

namespace EdgeLine

theorem body_injective {k l : EdgeLine} (h : k.body = l.body) : k = l := by
  cases k
  cases l
  simpa [body] using h

theorem unbroken_body (l : EdgeLine) : mark '\n' ∉ l.body := by
  simp [body, l.unbroken]

/-- What the line of an edge begins with. -/
def Opens (l : Lexeme) : Prop := l = mark ' '

theorem opens_body (l : EdgeLine) : ∃ k ks, l.body = k :: ks ∧ Opens k :=
  ⟨mark ' ', _, rfl, rfl⟩

end EdgeLine

/-! ## Outlines -/

/-- After the header comes the id of a node or an empty line. -/
theorem not_opens_header (nodes : List NodeLine) (ls : List Lexeme) :
    ∀ l ∈ (lines NodeLine.body nodes ++ mark '\n' :: ls).head?, ¬HeaderLine.Opens l := by
  rintro l hl ⟨c, hc, rfl⟩
  cases nodes with
  | nil =>
    have hmark : mark '\n' = mark c := by simpa using hl
    exact hc (Lexeme.mark.inj hmark).symm
  | cons n rest => simp [NodeLine.body] at hl

/-- **An outline is determined by its lexemes.** -/
theorem Outline.lexemes_injective {o p : Outline} (h : o.lexemes = p.lexemes) : o = p := by
  have hsplit : ∀ q : Outline, q.lexemes = lines HeaderLine.body q.header
      ++ (lines NodeLine.body q.nodes
        ++ (mark '\n' :: (lines EdgeLine.body q.edges ++ [mark '\x7d']))) := by
    intro q
    simp [lexemes]
  -- the header ends at an id or an empty line, the nodes at the empty line, and the edges
  -- at the brace
  rw [hsplit, hsplit] at h
  obtain ⟨heqHeader, h⟩ := lines_append_inj HeaderLine.body_injective
    HeaderLine.unbroken_body HeaderLine.opens_body (not_opens_header _ _)
    (not_opens_header _ _) h
  obtain ⟨heqNodes, h⟩ := lines_append_inj NodeLine.body_injective NodeLine.unbroken_body
    NodeLine.opens_body (by simp [NodeLine.Opens]) (by simp [NodeLine.Opens]) h
  obtain ⟨heqEdges, -⟩ := lines_append_inj EdgeLine.body_injective EdgeLine.unbroken_body
    EdgeLine.opens_body (by simp [EdgeLine.Opens]) (by simp [EdgeLine.Opens])
    (List.cons.inj h).2
  cases o
  cases p
  simp_all

end TypeAtlas
