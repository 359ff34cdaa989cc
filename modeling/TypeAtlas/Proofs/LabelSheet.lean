import TypeAtlas.Proofs.Sheet

/-!
# What a label says

The sheet of a label is that of its record (`Label.exists_sheet`): which sections there are, and
what each row of them says. Above the first heading there is what the type is; tags, attributes and
routines follow in sections of their own, in the order of their names. Tags and modifiers are shown
by their texts (`Label.shownTag`, `Label.shownModifiers`).

A routine may take several rows, since the list of its parameters may. Its tags and modifiers stand
before its result, with a space if there are any. A writer of routines need not know whether there
are: it can tell from the end of all that it has written of the label (`Label.writeRoutine`), since
a mark ends with an angle bracket, and character data does not (`Label.spaced_encode`).
-/

namespace TypeAtlas

open Markup Markup.Node

namespace Label

open Sheet

/-! ## Items in the order of their names -/

/-- **Items in the order of their names**: the same items, and those of one name in the order in
which they were given. -/
structure IsByName {α : Type} (name : α → String) (items sorted : List α) : Prop where
  /-- They are the same items. -/
  perm : sorted.Perm items
  /-- Their names ascend. -/
  ascending : sorted.Pairwise fun a b => name a ≤ name b
  /-- Those of one name are in their order. -/
  stable : ∀ n, sorted.filter (fun a => name a = n) = items.filter fun a => name a = n

theorem isByName_byName {α : Type} (name : α → String) (items : List α) :
    IsByName name items (byName name items) := by
  have htrans : ∀ a b c : α, decide (name a ≤ name b) = true → decide (name b ≤ name c) = true →
      decide (name a ≤ name c) = true := fun a b c hab hbc =>
    decide_eq_true (String.le_trans (of_decide_eq_true hab) (of_decide_eq_true hbc))
  have htotal : ∀ a b : α, (decide (name a ≤ name b) || decide (name b ≤ name a)) = true :=
    fun a b => by simpa using String.le_total (name a) (name b)
  have hperm : (byName name items).Perm items := List.mergeSort_perm items _
  refine ⟨hperm, (List.pairwise_mergeSort htrans htotal items).imp of_decide_eq_true, fun n => ?_⟩
  -- the items of one name are a sorted part of the list, and so are still one when it is sorted
  have hsame : (items.filter fun a => name a = n).Pairwise
      fun a b => decide (name a ≤ name b) = true := by
    refine List.pairwise_of_forall_mem_list fun a ha b hb => decide_eq_true ?_
    have hnames : name a = name b := (of_decide_eq_true (List.mem_filter.1 ha).2).trans
      (of_decide_eq_true (List.mem_filter.1 hb).2).symm
    exact hnames ▸ String.le_refl (name a)
  have hpart := (List.sublist_mergeSort htrans htotal hsame List.filter_sublist).filter
    fun a => name a = n
  simp only [List.filter_filter, Bool.and_self] at hpart
  exact (hpart.eq_of_length (hperm.filter _).length_eq.symm).symm

/-! ## Modifiers and kinds -/

/-- **The modifiers in the order in which they are shown**, with their words. -/
def keywords : List (Modifier × String) :=
  [(.public, "public"), (.protected, "protected"), (.private, "private"),
   (.abstract, "abstract"), (.static, "static"), (.final, "final"), (.transient, "transient"),
   (.volatile, "volatile"), (.synchronized, "synchronized"), (.native, "native"),
   (.strictfp, "strictfp"), (.default, "default"), (.synthetic, "synthetic")]

/-- **The text of modifiers**: the word of each, once, in their order, between spaces. -/
def shownModifiers (modifiers : List Modifier) : String :=
  " ".intercalate ((keywords.filter fun k => k.1 ∈ modifiers).map Prod.snd)

theorem display_eq_shownModifiers (modifiers : List Modifier) :
    Modifier.display modifiers = shownModifiers modifiers := by
  have hwords : keywords = Modifier.all.map fun m => (m, m.word) := rfl
  rw [shownModifiers, hwords, List.filter_map, List.map_map]
  rfl

/-- The word for the kind of a type. -/
def shownKind (r : TypeRecord) : String :=
  if r.kind = .interface then "interface"
  else if r.kind = .tag then "@interface"
  else if r.isEnum then "enum" else "class"

theorem kindWord_eq_shownKind (r : TypeRecord) : kindWord r = shownKind r := by
  cases hkind : r.kind <;> simp [kindWord, shownKind, hkind]

/-- What there is of several texts, between spaces. -/
def shownParts (parts : List String) : String := " ".intercalate (parts.filter (· ≠ ""))

/-- The tags on a declaration, between spaces. -/
def shownTags (tags : List TagUse) : String := " ".intercalate (tags.map shownTag)

theorem tagsText_eq_shownTags (tags : List TagUse) : tagsText tags = shownTags tags := by
  rw [tagsText, shownTags, funext display_eq_shownTag]

/-! ## The lines of a label -/

/-- The lines that say what a type is: modifiers and kind, package, simple name. -/
def titleLines (r : TypeRecord) : List (List Words) :=
  [.plain (shownParts [shownModifiers r.modifiers, shownKind r])]
    :: r.package?.toList.map (fun package => [.bold package]) ++ [[.bold r.simpleName]]

/-- The modifiers of a declaration as they are shown, unless they are not to be. -/
def modifiersShown (ignored : Bool) (modifiers : List Modifier) : String :=
  if ignored then "" else shownModifiers modifiers

theorem modifiersShown_eq (ignored : Bool) (modifiers : List Modifier) :
    (if !ignored then Modifier.display modifiers else "") = modifiersShown ignored modifiers := by
  cases ignored
  · exact display_eq_shownModifiers modifiers
  · rfl

/-- **The line of an attribute**: what there is of its tags, its modifiers and its type, between
spaces, and its name. -/
def attributeLine (ignored : Bool) (a : Attribute) : List Words :=
  [.plain (shownParts [shownTags a.tags, modifiersShown ignored a.modifiers, a.signature.text]),
   .bold a.name]

/-- What there is of the tags and modifiers of a routine. -/
def routinePrefix (ignored : Bool) (x : Routine) : String :=
  shownParts [shownTags x.tags, modifiersShown ignored x.modifiers]

/-- What a row of parameters says. -/
def rowWords (spans : List Span) : Words where
  chars := spans.flatMap Span.seen
  boldChars := spans.flatMap fun s => (s.name.getD "").toList

/-- What the cell of a row of parameters says, given the number of the row and how many there are:
there is a parenthesis before the first row and one after the last. -/
def parameterCell (count : Nat) (p : List Span × Nat) : Words :=
  (if p.2 = 0 then .plain "(" else .plain "") ++ rowWords p.1
    ++ if p.2 + 1 = count then .plain ")" else .plain ""

/-- **The lines of a routine**, one for each row of its parameters. On the first one there are its
tags and modifiers, as far as it has any, a space after them if it has, and its result; and its
name with a space. -/
def routineLines (typeName : String) (ignored : Bool) (rows : List (List Span)) (x : Routine) :
    List (List Words) :=
  let lead := routinePrefix ignored x
  let result := if x.name = "<init>" then .bold "<constructor>" else .plain x.result.text
  let name := if x.name = "<init>" then typeName else x.name
  rows.zipIdx.map fun p =>
    if p.2 = 0 then
      [.plain lead ++ (if lead = "" then .plain "" else .plain " ") ++ result,
       .bold name ++ .plain "\u00a0", parameterCell rows.length p]
    else [.plain "", .plain "", parameterCell rows.length p]

/-! ### Rows are lines -/

theorem forall₂_titleRows (r : TypeRecord) :
    List.Forall₂ IsLine (titleRows r) (titleLines r) := by
  have hkind := isLine_row [([], [text (joinNonEmpty [Modifier.display r.modifiers, kindWord r])])]
    (by simp [columns_cell])
  have hpackage : ∀ package, (row [cell [] [bold [text package]]]).IsLine [.bold package] :=
    fun package => by simpa using isLine_row [([], [bold [text package]])] (by simp [columns_cell])
  have hname := isLine_row [([], [sized "24" [bold [text r.simpleName]]])]
    (by simp [columns_cell])
  simp only [List.map_cons, List.map_nil, wordsAll_text, wordsAll_sized, wordsAll_bold,
    wordsAll_nil, Words.append_plain_empty] at hkind hname
  rw [titleLines, ← display_eq_shownModifiers, ← kindWord_eq_shownKind]
  refine .cons hkind (List.rel_append ?_ (.cons hname .nil))
  cases r.package? with
  | none => exact .nil
  | some package => exact .cons (hpackage package) .nil

theorem isLine_tagRow (t : TagUse) : (tagRow t).IsLine [.plain (shownTag t)] := by
  simpa [tagRow, display_eq_shownTag] using isLine_row [(aligned "center", [text t.display])] (by simp [columns_aligned])

theorem isLine_attributeRow (ignored : Bool) (a : Attribute) :
    (attributeRow (!ignored) a).IsLine (attributeLine ignored a) := by
  have hrow := isLine_row
    [(aligned "right", [text (joinNonEmpty [tagsText a.tags,
      if !ignored then Modifier.display a.modifiers else "", a.signature.text])]),
     (aligned "left", [bold [text a.name]])] (by simp [columns_aligned])
  simp only [List.map_cons, List.map_nil, wordsAll_text, wordsAll_bold, wordsAll_nil,
    Words.append_plain_empty] at hrow
  rw [attributeLine, ← tagsText_eq_shownTags, ← modifiersShown_eq]
  exact hrow

/-! ### The rows of routines -/

/-- What the spans of a row say. -/
theorem wordsAll_flatMap_markup (spans : List Span) :
    wordsAll (spans.flatMap Span.markup) = rowWords spans := by
  induction spans with
  | nil => rfl
  | cons s spans ih =>
    have hspan : wordsAll s.markup = ⟨s.seen, (s.name.getD "").toList⟩ := by
      cases hname : s.name <;>
        simp [Span.markup, Span.seen, hname, Words.plain, Words.bold, Words.append_def]
    rw [List.flatMap_cons, wordsAll_append, hspan, ih]
    rfl

/-- **What the cells with parameters say**: the rows, with the parentheses at both ends. -/
theorem wordsAll_closeRows {rows : List (List Span)} {first : List Markup}
    {rest : List (List Markup)} (h : closeRows rows = first :: rest) (hrows : rows ≠ [])
    (start : Nat) :
    ((if start = 0 then .plain "(" else .plain "") ++ wordsAll first) :: rest.map wordsAll
      = (rows.zipIdx start).map (parameterCell (start + rows.length)) := by
  induction rows generalizing first rest start with
  | nil => exact absurd rfl hrows
  | cons spans more ih =>
    cases more with
    | nil =>
      obtain ⟨rfl, rfl⟩ := List.cons.inj h
      simp [parameterCell, wordsAll_append, wordsAll_flatMap_markup, Words.append_assoc]
    | cons next more =>
      have hmore : next :: more ≠ [] := List.cons_ne_nil _ _
      rw [closeRows_cons spans hmore] at h
      obtain ⟨rfl, hrest⟩ := List.cons.inj h
      obtain ⟨first', rest', hclose⟩ := List.exists_cons_of_ne_nil (closeRows_ne_nil (next :: more))
      have hbelow := ih hclose hmore (start + 1)
      rw [if_neg (Nat.succ_ne_zero start), Words.plain_empty_append] at hbelow
      have hcount : start + (spans :: next :: more).length = start + 1 + (next :: more).length := by
        rw [List.length_cons]
        omega
      -- more rows follow, so there is no parenthesis after this one
      have hcell : parameterCell (start + (spans :: next :: more).length) (spans, start)
          = (if start = 0 then .plain "(" else .plain "") ++ rowWords spans := by
        have hlast : start + 1 ≠ start + (spans :: next :: more).length := by simp
        rw [parameterCell, if_neg hlast, Words.append_plain_empty]
      rw [← hrest, hclose, List.map_cons, hbelow, ← hcount, wordsAll_flatMap_markup, ← hcell,
        ← List.map_cons]
      rfl

/-- In the cells with parameters there are no tables. -/
theorem isTable_of_mem_closeRows {rows : List (List Span)} {content : List Markup}
    (h : content ∈ closeRows rows) : ∀ m ∈ content, m.isTable = false := by
  have hspans : ∀ spans : List Span, ∀ m ∈ spans.flatMap Span.markup, m.isTable = false := by
    intro spans m hm
    obtain ⟨s, -, hm⟩ := List.mem_flatMap.1 hm
    simp only [Span.markup, List.mem_cons, List.mem_append, List.mem_map, List.cons_append,
      List.not_mem_nil, or_false] at hm
    obtain rfl | ⟨name, -, rfl⟩ | rfl := hm <;> rfl
  fun_induction closeRows rows with
  | case1 =>
    obtain rfl := List.mem_singleton.1 h
    simp
  | case2 spans =>
    obtain rfl := List.mem_singleton.1 h
    exact List.forall_mem_append.2 ⟨hspans spans, by simp⟩
  | case3 spans rest _ ih =>
    obtain rfl | hrest := List.mem_cons.1 h
    · exact hspans spans
    · exact ih hrest

/-- **What stands before the result of a routine**: its tags and modifiers, and a space if it has
any. -/
theorem routineLead_eq (ignored : Bool) (x : Routine) :
    routineLead (!ignored) x
      = if routinePrefix ignored x = "" then "" else routinePrefix ignored x ++ " " := by
  rw [routinePrefix, ← tagsText_eq_shownTags, ← modifiersShown_eq]
  rfl

/-- What a constructor is called. -/
theorem isConstructor_iff (x : Routine) : x.isConstructor = true ↔ x.name = "<init>" :=
  decide_eq_true_iff

/-- What the first cell of a routine says. -/
theorem wordsAll_lead (ignored : Bool) (x : Routine) :
    wordsAll [text (routineLead (!ignored) x),
        if x.isConstructor then bold [text "<constructor>"] else text x.result.text]
      = .plain (routinePrefix ignored x)
        ++ (if routinePrefix ignored x = "" then .plain "" else .plain " ")
        ++ if x.name = "<init>" then .bold "<constructor>" else .plain x.result.text := by
  have hresult : wordsAll [if x.name = "<init>" then bold [text "<constructor>"]
        else text x.result.text]
      = if x.name = "<init>" then .bold "<constructor>" else .plain x.result.text := by
    split <;> simp
  simp only [wordsAll_text, isConstructor_iff, hresult, routineLead_eq]
  split
  · next hempty => simp only [hempty, Words.plain_empty_append]
  · rw [Words.plain_append]

/-- The lines of a routine, the first one and those on which its parameters go on. -/
theorem routineLines_eq (typeName : String) (ignored : Bool) {rows : List (List Span)}
    (hrows : rows ≠ []) (x : Routine) {first : List Markup} {rest : List (List Markup)}
    (h : closeRows rows = first :: rest) :
    routineLines typeName ignored rows x
      = [wordsAll [text (routineLead (!ignored) x),
            if x.isConstructor then bold [text "<constructor>"] else text x.result.text],
          wordsAll [bold [text (if x.isConstructor then typeName else x.name)], space],
          wordsAll (text "(" :: first)]
        :: rest.map fun content => [wordsAll [], wordsAll [], wordsAll content] := by
  have hwords := wordsAll_closeRows h hrows 0
  obtain ⟨spans, more, rfl⟩ := List.exists_cons_of_ne_nil hrows
  rw [if_pos rfl, Nat.zero_add, List.zipIdx_cons, List.map_cons] at hwords
  obtain ⟨hfirst, hrest⟩ := List.cons.inj hwords
  have hname : (if x.isConstructor then typeName else x.name)
      = if x.name = "<init>" then typeName else x.name := by simp only [isConstructor_iff]
  have hbelow : rest.map (fun content => [wordsAll [], wordsAll [], wordsAll content])
      = (rest.map wordsAll).map fun w => [.plain "", .plain "", w] := by
    rw [List.map_map]
    rfl
  rw [wordsAll_lead, wordsAll_bold, wordsAll_space, wordsAll_text, hfirst, hname, hbelow, hrest,
    routineLines, List.zipIdx_cons, List.map_cons, List.map_map]
  refine List.cons_eq_cons.2 ⟨by simp, List.map_congr_left fun p hp => ?_⟩
  have hnumber : p.2 ≠ 0 := Nat.ne_of_gt (List.le_snd_of_mem_zipIdx hp)
  rw [if_neg hnumber]
  rfl

/-- **The rows of a routine are its lines.** -/
theorem forall₂_routineRows (typeName : String) (ignored : Bool) (x : Routine) :
    List.Forall₂ IsLine (routineRows typeName (!ignored) x)
      (routineLines typeName ignored (parameterRows x) x) := by
  obtain ⟨first, rest, hrows⟩ := List.exists_cons_of_ne_nil (closeRows_ne_nil (parameterRows x))
  have hplain : ∀ content ∈ first :: rest, ∀ m ∈ content, m.isTable = false :=
    hrows ▸ fun content hcontent => isTable_of_mem_closeRows hcontent
  obtain ⟨hfirst, hrest⟩ := List.forall_mem_cons.1 hplain
  have hsome : parameterRows x ≠ [] := wrap_ne_nil 0 _
  rw [routineLines_eq typeName ignored hsome x hrows]
  simp only [routineRows, hrows]
  refine .cons ?_ ?_
  · refine isLine_row [(aligned "right", _), (aligned "left", _), (aligned "left", _)] ?_
    have hresult : (if x.isConstructor then bold [text "<constructor>"]
        else text x.result.text).isTable = false := by
      split <;> rfl
    simpa [columns_aligned, hresult] using hfirst
  · rw [List.forall₂_map_left_iff, List.forall₂_map_right_iff, List.forall₂_same]
    intro content hcontent
    refine isLine_row [([], []), ([], []), (aligned "left", content)] ?_
    simpa [columns_aligned, columns_cell] using hrest content hcontent

/-- The rows of several items are their lines. -/
theorem forall₂_flatMap {α : Type} {rows : α → List Markup} {lines : α → List (List Words)}
    (h : ∀ a, List.Forall₂ IsLine (rows a) (lines a)) (items : List α) :
    List.Forall₂ IsLine (items.flatMap rows) (items.flatMap lines) := by
  induction items with
  | nil => exact .nil
  | cons a items ih => exact List.rel_append (h a) ih

theorem forall₂_map {α : Type} {row : α → Markup} {line : α → List Words}
    (h : ∀ a, (row a).IsLine (line a)) (items : List α) :
    List.Forall₂ IsLine (items.map row) (items.map line) := by
  rw [List.forall₂_map_left_iff, List.forall₂_map_right_iff, List.forall₂_same]
  exact fun a _ => h a

/-! ## The sheet of a label -/

/-- The section of tags, given the tags in the order in which they are listed. -/
def tagSections (r : TypeRecord) (tags : List TagUse) : List Section :=
  if r.tags ≠ [] then [⟨"TAGS", tags.map fun t => [.plain (shownTag t)]⟩] else []

/-- The section of attributes, given these in the order in which they are listed. -/
def attributeSections (scan : ScanSettings) (diagram : DiagramSettings) (r : TypeRecord)
    (attributes : List Attribute) : List Section :=
  if diagram.showAttributes ∧ r.attributes ≠ [] then
    [⟨if scan.ignoreAttributeVisibility then "ATTRIBUTES" else "PUBLIC ATTRIBUTES",
      attributes.map (attributeLine scan.ignoreAttributeVisibility)⟩]
  else []

/-- Whether there is a section of routines. -/
def ShowsRoutines (diagram : DiagramSettings) (r : TypeRecord) : Prop :=
  diagram.showRoutines ∧ ∃ x ∈ r.routines, x.name ≠ "<clinit>"

instance (diagram : DiagramSettings) (r : TypeRecord) : Decidable (ShowsRoutines diagram r) :=
  inferInstanceAs (Decidable (_ ∧ _))

/-- The section of routines, given those of them but static initializers in the order in which
they are listed, and the rows of the parameters of each. -/
def routineSections (scan : ScanSettings) (diagram : DiagramSettings) (r : TypeRecord)
    (rows : Routine → List (List Span)) (routines : List Routine) : List Section :=
  if ShowsRoutines diagram r then
    [⟨if scan.ignoreRoutineVisibility then "ROUTINES" else "PUBLIC ROUTINES",
      routines.flatMap fun x =>
        routineLines r.simpleName scan.ignoreRoutineVisibility (rows x) x⟩]
  else []

theorem isBlock_tagSection (colour : Colour) (r : TypeRecord) :
    IsBlock (tagSection colour r) (tagSections r (byName (·.name) r.tags)) := by
  unfold tagSection tagSections
  by_cases hnil : r.tags = []
  · rw [if_pos hnil, if_neg (not_not_intro hnil)]
    exact isBlock_nil
  · rw [if_neg hnil, if_pos hnil]
    exact isBlock_section "TAGS" colour (forall₂_map isLine_tagRow _)

theorem isBlock_attributeSection (scan : ScanSettings) (diagram : DiagramSettings)
    (colour : Colour) (r : TypeRecord) :
    IsBlock (attributeSection scan diagram colour r)
      (attributeSections scan diagram r (byName (·.name) r.attributes)) := by
  have hrows := forall₂_map (isLine_attributeRow scan.ignoreAttributeVisibility)
    (byName (·.name) r.attributes)
  have hblock := isBlock_ownSection
    (if scan.ignoreAttributeVisibility then "ATTRIBUTES" else "PUBLIC ATTRIBUTES") colour hrows
  unfold attributeSection attributeSections
  cases hignored : scan.ignoreAttributeVisibility <;> rw [hignored] at hblock <;> exact hblock.ite

/-- The routines that have rows. -/
theorem filter_isStaticInitializer (r : TypeRecord) :
    r.routines.filter (fun x => !x.isStaticInitializer)
      = r.routines.filter fun x => x.name ≠ "<clinit>" := by
  refine List.filter_congr fun x _ => ?_
  by_cases hinit : x.name = "<clinit>" <;>
    simp [Routine.isStaticInitializer, Routine.initializerName, hinit]

/-- **The section of routines**, if there is one. -/
theorem routineSection_eq (scan : ScanSettings) (diagram : DiagramSettings) (colour : Colour)
    (r : TypeRecord) :
    routineSection scan diagram colour r
      = if ShowsRoutines diagram r then
          [ownSection (if scan.ignoreRoutineVisibility then "ROUTINES" else "PUBLIC ROUTINES")
            colour ((byName (·.name) (r.routines.filter fun x => x.name ≠ "<clinit>")).flatMap
              (routineRows r.simpleName (!scan.ignoreRoutineVisibility)))]
        else [] := by
  have hshown : (r.routines.filter fun x => x.name ≠ "<clinit>") ≠ []
      ↔ ∃ x ∈ r.routines, x.name ≠ "<clinit>" := by
    simp [List.filter_eq_nil_iff]
  unfold routineSection ShowsRoutines
  simp only [filter_isStaticInitializer, hshown]
  cases scan.ignoreRoutineVisibility <;> rfl

theorem isBlock_routineSection (scan : ScanSettings) (diagram : DiagramSettings)
    (colour : Colour) (r : TypeRecord) :
    IsBlock (routineSection scan diagram colour r)
      (routineSections scan diagram r parameterRows
        (byName (·.name) (r.routines.filter fun x => x.name ≠ "<clinit>"))) := by
  have hrows := forall₂_flatMap
    (fun x => forall₂_routineRows r.simpleName scan.ignoreRoutineVisibility x)
    (byName (·.name) (r.routines.filter fun x => x.name ≠ "<clinit>"))
  rw [routineSection_eq]
  exact (isBlock_ownSection _ colour hrows).ite

/-- **What the table of a record says.** -/
theorem ofTable_readTable (scan : ScanSettings) (diagram : DiagramSettings) (colour : Colour)
    (r : TypeRecord) :
    (∀ row ∈ (readTable scan diagram colour r).rows, row.IsRow)
      ∧ Sheet.ofTable (readTable scan diagram colour r)
        = ⟨titleLines r, tagSections r (byName (·.name) r.tags)
            ++ attributeSections scan diagram r (byName (·.name) r.attributes)
            ++ routineSections scan diagram r parameterRows
              (byName (·.name) (r.routines.filter fun x => x.name ≠ "<clinit>"))⟩ := by
  have hblock := ((isBlock_tagSection colour r).append
    (isBlock_attributeSection scan diagram colour r)).append
    (isBlock_routineSection scan diagram colour r)
  have htitle := forall₂_titleRows r
  obtain ⟨htitleRow, hstay⟩ := isRow_of_lines htitle
  have hrows : (readTable scan diagram colour r).rows
      = nodesAll (titleRows r)
        ++ (nodesAll (tagSection colour r ++ attributeSection scan diagram colour r
          ++ routineSection scan diagram colour r)).flatMap spread := by
    rw [rows, readTable, content_element, List.append_assoc (titleRows r),
      List.append_assoc (titleRows r), nodesAll_append, List.flatMap_append, hstay]
  have hread := hblock.ofRows_append [] rfl
  rw [List.append_nil] at hread
  rw [Sheet.ofTable, hrows, List.forall_mem_append, ofRows_lines htitle, hread]
  exact ⟨⟨htitleRow, hblock.isRow⟩, by simp [ofRows]⟩

/-! ## Routines as they are written -/

/-- A text, with a space after it unless it ends with a mark. -/
def spaced (cs : List Char) : List Char := if cs.getLast? = some '>' then cs else cs ++ [' ']

/-- **Whether there is character data can be told from the end of what has been written**, if a
mark stands before it: a space follows exactly if there is some. -/
theorem spaced_encode {before : List Char} (hbefore : before.getLast? = some '>')
    (lead : String) :
    spaced (before ++ Entity.encode lead.toList)
      = before ++ Entity.encode (if lead = "" then "" else lead ++ " ").toList := by
  by_cases hempty : lead = ""
  · rw [if_pos hempty, hempty, String.toList_empty, Entity.encode_nil, List.append_nil, spaced,
      if_pos hbefore]
  · have hdata : Entity.encode lead.toList ≠ [] := by
      obtain ⟨c, cs, hcs⟩ := List.exists_cons_of_ne_nil (mt String.toList_eq_nil_iff.1 hempty)
      rw [hcs, Entity.encode_cons]
      obtain ⟨-, hchar⟩ | ⟨body, hchar, -⟩ := Entity.encodeChar_cases c <;> simp [hchar]
    have hlast : (Entity.encode lead.toList).getLast? ≠ some '>' := by
      intro hend
      obtain ⟨c, -, hc⟩ := List.mem_flatMap.1 (List.mem_of_getLast? hend)
      exact (Entity.encodeChar_ne hc).2 rfl
    rw [spaced, List.getLast?_append_of_ne_nil _ hdata, if_neg hlast, if_neg hempty,
      String.toList_append, Entity.encode_append, List.append_assoc]
    rfl

/-- **A routine is written** behind all that has been written of its label. -/
def writeRoutine (typeName : String) (ignored : Bool) (written : List Char) (x : Routine) :
    List Char :=
  let result := if x.name = "<init>" then "<b>&lt;constructor&gt;</b>".toList
    else Entity.encode x.result.text.toList
  let name := if x.name = "<init>" then typeName else x.name
  spaced (written ++ "<tr><td align=\x27right\x27 valign=\x27top\x27>".toList
      ++ Entity.encode (routinePrefix ignored x).toList)
    ++ result ++ "</td><td align=\x27left\x27 valign=\x27top\x27><b>".toList
    ++ Entity.encode name.toList
    ++ "</b>&nbsp;</td><td align=\x27left\x27 valign=\x27top\x27>".toList
    ++ writeParameters x.parameters ++ "</td></tr>".toList

/-- **What is written of a routine are its rows**, whatever stands before them. -/
theorem writeRoutine_eq (typeName : String) (ignored : Bool) (written : List Char) (x : Routine) :
    writeRoutine typeName ignored written x
      = written ++ renderAll (routineRows typeName (!ignored) x) := by
  have hmark : (written ++ "<tr><td align=\x27right\x27 valign=\x27top\x27>".toList).getLast?
      = some '>' := List.getLast?_append_of_ne_nil _ (by decide)
  have hconstructor : (bold [text "<constructor>"]).render
      = "<b>&lt;constructor&gt;</b>".toList := by decide
  have hfirst : openMark "tr" [] ++ openMark "td" (aligned "right")
      = "<tr><td align=\x27right\x27 valign=\x27top\x27>".toList := by decide
  have hsecond : closeMark "td" ++ openMark "td" (aligned "left") ++ openMark "b" []
      = "</td><td align=\x27left\x27 valign=\x27top\x27><b>".toList := by decide
  have hthird : closeMark "b" ++ space.render ++ closeMark "td" ++ openMark "td" (aligned "left")
      = "</b>&nbsp;</td><td align=\x27left\x27 valign=\x27top\x27>".toList := by decide
  have hlast : routineClosing = "</td></tr>".toList := by decide
  rw [writeRoutine, spaced_encode hmark, ← routineLead_eq, renderAll_routineRows, routineOpening,
    ← hfirst, ← hsecond, ← hthird, ← hlast, ← hconstructor]
  simp only [isConstructor_iff, cell, bold, Markup.render, renderAll, apply_ite Markup.render,
    List.append_assoc, List.append_nil]

/-- **Several routines are written** one after the other. -/
theorem foldl_writeRoutine (typeName : String) (ignored : Bool) (written : List Char)
    (routines : List Routine) :
    routines.foldl (writeRoutine typeName ignored) written
      = written ++ renderAll (routines.flatMap (routineRows typeName (!ignored))) := by
  induction routines generalizing written with
  | nil => simp [renderAll]
  | cons x routines ih =>
    rw [List.foldl_cons, ih, writeRoutine_eq, List.flatMap_cons, renderAll_append,
      List.append_assoc]

/-- **A label ends with its routines**, if it shows any. -/
theorem exists_render_eq_foldl (scan : ScanSettings) (diagram : DiagramSettings) (colour : Colour)
    {r : TypeRecord} (h : ShowsRoutines diagram r) :
    ∃ written, render scan diagram colour r
      = (byName (·.name) (r.routines.filter fun x => x.name ≠ "<clinit>")).foldl
          (writeRoutine r.simpleName scan.ignoreRoutineVisibility) written
        ++ "</table></td></tr></table>>".toList := by
  simp only [foldl_writeRoutine]
  rw [render, table, routineSection_eq, if_pos h]
  refine ⟨'<' :: openMark "table" [("border", "0"), ("cellborder", "0"), ("cellspacing", "1")]
    ++ renderAll (titleRows r ++ tagSection colour r ++ attributeSection scan diagram colour r)
    ++ openMark "tr" [] ++ openMark "td" [("cellpadding", "0")]
    ++ openMark "table" [("border", "0"), ("cellborder", "0")]
    ++ (heading (if scan.ignoreRoutineVisibility then "ROUTINES" else "PUBLIC ROUTINES")
      colour).render, ?_⟩
  simp [ownSection, row, cell, Markup.render, renderAll, closeMark]

/-! ## The label of a record -/

/-- **A label says what its record says.** It is read as a table, all rows of which are rows of
cells. Above the first heading it says what the type is. There is a section of tags exactly if
the record has any, one of attributes if they are shown and there are any, and one of routines if
they are shown and one of them is no static initializer; tags, attributes and routines stand in
the order of their names, and each has its own line, or, where the list of its parameters is long,
lines. The routines, if there are any, can be written by looking only at what stands before each
of them. -/
theorem exists_sheet (scan : ScanSettings) (diagram : DiagramSettings) (colour : Colour)
    (r : TypeRecord) :
    ∃ (table : Node) (tags : List TagUse) (attributes : List Attribute)
        (routines : List Routine) (units : Routine → List (Span × Bool)),
      IsLabel (render scan diagram colour r) table
      ∧ (∀ row ∈ table.rows, row.IsRow)
      ∧ IsByName (·.name) r.tags tags
      ∧ IsByName (·.name) r.attributes attributes
      ∧ IsByName (·.name) (r.routines.filter fun x => x.name ≠ "<clinit>") routines
      ∧ (∀ x, (units x).map Prod.fst = unitsOf x.parameters ∧ IsWrapped (units x))
      ∧ Sheet.ofTable table
        = ⟨titleLines r, tagSections r tags ++ attributeSections scan diagram r attributes
            ++ routineSections scan diagram r (fun x => rowsOf (units x)) routines⟩
      ∧ (ShowsRoutines diagram r → ∃ written, render scan diagram colour r
        = routines.foldl (writeRoutine r.simpleName scan.ignoreRoutineVisibility) written
          ++ "</table></td></tr></table>>".toList) := by
  obtain ⟨hrows, hsheet⟩ := ofTable_readTable scan diagram colour r
  rw [funext parameterRows_eq_rowsOf] at hsheet
  exact ⟨_, _, _, _, fun x => mark 0 (unitsOf x.parameters), isLabel_render scan diagram colour r,
    hrows, isByName_byName _ _, isByName_byName _ _, isByName_byName _ _,
    fun x => ⟨map_fst_mark 0 _, isWrapped_mark _⟩, hsheet,
    fun hshown => exists_render_eq_foldl scan diagram colour hshown⟩

end Label

end TypeAtlas
