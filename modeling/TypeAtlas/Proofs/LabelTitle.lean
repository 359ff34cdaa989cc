import TypeAtlas.Proofs.LabelSheet

/-!
# The name of a type in its label

A label says the name of its type on two lines, the package and the simple name. The name is cut
after its last dot, and what is before the cut and with it is the package. So the two lines
together say the whole name, but for one exception: where the last dot is the very first character
of the name, it closes no package, and it belongs to no simple name either.

Labels whose two lines are the same are therefore labels of one name, or of a name without dots
and of that name with a dot before it (`Label.exists_titles`).
-/

namespace TypeAtlas

/-! ## The last dot of a name -/

/-- **A name with a dot before it**, where it has no dot itself. -/
def Dots (name dotted : String) : Prop := dotted = "." ++ name ∧ '.' ∉ name.toList

namespace TypeRecord

/-- A text without dots has no front. -/
theorem splitAtLastDot_of_not_mem {cs : List Char} (h : '.' ∉ cs) :
    splitAtLastDot cs = ([], cs) := by
  have htake : cs.reverse.takeWhile (· ≠ '.') = cs.reverse := by
    rw [← List.append_nil cs.reverse, List.takeWhile_append_of_pos, List.takeWhile_nil]
    exact fun c hc => decide_eq_true fun hdot => h (List.mem_reverse.1 (hdot ▸ hc))
  rw [splitAtLastDot, htake, List.reverse_reverse, Nat.sub_self, List.take_zero]

/-- A text is cut after its last dot. -/
theorem splitAtLastDot_append {front simple : List Char} (h : '.' ∉ simple) :
    splitAtLastDot (front ++ '.' :: simple) = (front ++ ['.'], simple) := by
  have htake : (front ++ '.' :: simple).reverse.takeWhile (· ≠ '.') = simple.reverse := by
    rw [List.reverse_append, List.reverse_cons, List.append_assoc, List.singleton_append,
      List.takeWhile_append_of_pos, List.takeWhile_cons_of_neg (by simp), List.append_nil]
    exact fun c hc => decide_eq_true fun hdot => h (List.mem_reverse.1 (hdot ▸ hc))
  have hlength : (front ++ '.' :: simple).length - simple.length = (front ++ ['.']).length := by
    simp only [List.length_append, List.length_cons, List.length_nil]
    omega
  rw [splitAtLastDot, htake, List.reverse_reverse, hlength,
    List.append_cons front '.' simple, List.take_left]

/-- **Every text has no dot or a last one.** -/
theorem not_mem_or_exists_last (cs : List Char) :
    '.' ∉ cs ∨ ∃ front simple, cs = front ++ '.' :: simple ∧ '.' ∉ simple := by
  by_cases hmem : '.' ∈ cs
  · obtain ⟨after, before, hcs, hnot⟩ := List.eq_append_cons_of_mem (List.mem_reverse.2 hmem)
    refine .inr ⟨before.reverse, after.reverse, ?_, mt List.mem_reverse.1 hnot⟩
    rw [← List.reverse_reverse cs, hcs]
    simp
  · exact .inl hmem

/-- **The package and the simple name of a type**, as they are shown. -/
def titles (r : TypeRecord) : String × String := (r.package?.getD "", r.simpleName)

theorem titles_eq {r : TypeRecord} {front simple : List Char}
    (h : splitAtLastDot r.name.toList = (front, simple)) :
    r.titles = (if 1 < front.length then String.ofList front else "", String.ofList simple) := by
  rw [titles, package?, simpleName, h]
  dsimp only
  split <;> rfl

/-- A name without dots is a simple name. -/
theorem titles_of_not_mem {r : TypeRecord} (h : '.' ∉ r.name.toList) : r.titles = ("", r.name) := by
  rw [titles_eq (splitAtLastDot_of_not_mem h), if_neg (by decide), String.ofList_toList]

/-- A dot at the very start is in neither of the two. -/
theorem titles_of_dots {r : TypeRecord} {name : String} (h : Dots name r.name) :
    r.titles = ("", name) := by
  have hsplit : splitAtLastDot r.name.toList = (['.'], name.toList) := by
    rw [h.1, String.toList_append]
    exact @splitAtLastDot_append [] _ h.2
  rw [titles_eq hsplit, if_neg (by decide), String.ofList_toList]

/-- **The two say the whole name**, unless it is one with a dot before it. -/
theorem titles_cases (r : TypeRecord) :
    '.' ∉ r.titles.2.toList
      ∧ (r.titles.1 ++ r.titles.2 = r.name ∨ ∃ name, Dots name r.name ∧ r.titles = ("", name)) := by
  obtain hnot | ⟨front, simple, hname, hnot⟩ := not_mem_or_exists_last r.name.toList
  · rw [titles_of_not_mem hnot]
    exact ⟨hnot, .inl String.empty_append⟩
  · rw [← String.toList_ofList (l := simple)] at hnot hname
    cases front with
    | nil =>
      have hdots : Dots (String.ofList simple) r.name := by
        refine ⟨String.toList_injective ?_, hnot⟩
        rw [hname, String.toList_append]
        rfl
      rw [titles_of_dots hdots]
      exact ⟨hnot, .inr ⟨_, hdots, rfl⟩⟩
    | cons c front =>
      have hlength : 1 < (c :: front ++ ['.']).length := by simp
      rw [titles_eq (hname ▸ splitAtLastDot_append hnot), if_pos hlength]
      refine ⟨by rwa [String.ofList_toList], .inl (String.toList_injective ?_)⟩
      rw [String.toList_append, String.toList_ofList, hname]
      simp

/-- **Whose package and simple name are the same.** -/
theorem titles_eq_iff {r s : TypeRecord} :
    r.titles = s.titles ↔ r.name = s.name ∨ Dots r.name s.name ∨ Dots s.name r.name := by
  constructor
  · intro heq
    -- a name that is one with a dot before it has the titles of that one
    obtain ⟨-, hr | ⟨name, hr, hrtitles⟩⟩ := titles_cases r
    all_goals obtain ⟨-, hs | ⟨other, hs, hstitles⟩⟩ := titles_cases s
    · exact .inl (by rw [← hr, heq, hs])
    · rw [heq, hstitles] at hr
      exact .inr (.inl (by rwa [← hr, String.empty_append]))
    · rw [← heq, hrtitles] at hs
      exact .inr (.inr (by rwa [← hs, String.empty_append]))
    · rw [hrtitles, hstitles] at heq
      exact .inl (by rw [hr.1, hs.1, (Prod.mk.inj heq).2])
  · rintro (hname | hdots | hdots)
    · rw [titles, titles, package?, package?, simpleName, simpleName, hname]
    · rw [titles_of_dots hdots, titles_of_not_mem hdots.2]
    · rw [titles_of_dots hdots, titles_of_not_mem hdots.2]

end TypeRecord

/-! ## The two lines of a label -/

namespace Sheet

/-- The text of a line. -/
def lineText (line : List Words) : String := String.ofList (line.flatMap Words.chars)

/-- **The package and the simple name on a sheet.** Above the first heading, the simple name is
the last line; the package is what is between that and the first one, if there is anything. -/
def titles (s : Sheet) : String × String :=
  (String.join ((s.head.drop 1).dropLast.map lineText), (s.head.getLast?.map lineText).getD "")

end Sheet

namespace Label

/-- **The titles on the sheet of a record are those of the record.** -/
theorem titles_ofTable_readTable (scan : ScanSettings) (diagram : DiagramSettings)
    (colour : Colour) (r : TypeRecord) :
    (Sheet.ofTable (readTable scan diagram colour r)).titles = r.titles := by
  have hpackage : String.join ((r.package?.toList.map fun package => [Words.bold package]).map
      Sheet.lineText) = r.package?.getD "" := by
    cases r.package? with
    | none => rfl
    | some package => simp [Sheet.lineText, Words.bold, String.join]
  have hname : Sheet.lineText [.bold r.simpleName] = r.simpleName := by
    simp [Sheet.lineText, Words.bold]
  rw [(ofTable_readTable scan diagram colour r).2, Sheet.titles, titleLines, List.cons_append,
    List.drop_succ_cons, List.drop_zero, List.dropLast_concat, ← List.cons_append,
    List.getLast?_concat, Option.map_some, Option.getD_some, hname, hpackage, TypeRecord.titles]

/-- **The label of a type shows its whole name**, as its package and its simple name, unless the
name is one without dots and with a dot before it, of which the label shows all but the dot. So
labels in which both are the same are those of one name, or of two names that differ in such a
dot. -/
theorem exists_titles (scan scan' : ScanSettings) (diagram diagram' : DiagramSettings)
    (colour colour' : Colour) (r s : TypeRecord) :
    ∃ t u, IsLabel (render scan diagram colour r) t ∧ IsLabel (render scan' diagram' colour' s) u
      ∧ '.' ∉ (Sheet.ofTable t).titles.2.toList
      ∧ ((Sheet.ofTable t).titles.1 ++ (Sheet.ofTable t).titles.2 = r.name
        ∨ ∃ name, Dots name r.name ∧ (Sheet.ofTable t).titles = ("", name))
      ∧ ((Sheet.ofTable t).titles = (Sheet.ofTable u).titles
        ↔ r.name = s.name ∨ Dots r.name s.name ∨ Dots s.name r.name) := by
  refine ⟨_, _, isLabel_render scan diagram colour r, isLabel_render scan' diagram' colour' s, ?_⟩
  rw [titles_ofTable_readTable, titles_ofTable_readTable]
  obtain ⟨hnot, hname⟩ := r.titles_cases
  exact ⟨hnot, hname, TypeRecord.titles_eq_iff⟩

/-- **A dot at the very start of a name may be lost**: the labels of two types have the same
package and simple name, and these are not the whole name of the one. -/
theorem exists_titles_eq_of_name_ne :
    ∃ r s : TypeRecord, r.name = ".A" ∧ s.name = "A" ∧ ∃ t u,
      IsLabel (render {} {} ⟨0, 0, 0⟩ r) t ∧ IsLabel (render {} {} ⟨0, 0, 0⟩ s) u
        ∧ (Sheet.ofTable t).titles = (Sheet.ofTable u).titles
        ∧ (Sheet.ofTable t).titles.1 ++ (Sheet.ofTable t).titles.2 ≠ r.name := by
  have hdots : Dots "A" ".A" := ⟨by decide, by decide⟩
  refine ⟨{ name := ".A", kind := .standard }, { name := "A", kind := .standard }, rfl, rfl, _, _,
    isLabel_render _ _ _ _, isLabel_render _ _ _ _, ?_⟩
  rw [titles_ofTable_readTable, titles_ofTable_readTable, TypeRecord.titles_of_dots hdots,
    TypeRecord.titles_of_not_mem (by decide)]
  exact ⟨rfl, by decide⟩

end Label

end TypeAtlas
