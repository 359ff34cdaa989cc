import TypeAtlas.Proofs.Arrival
import TypeAtlas.Proofs.Wiring

/-!
# References to types by their names

A signature refers to a type by writing its name, perhaps with brackets after it, and the
scan has to find the name again in the text. It does so by its own notion of a name, a
*dotted name*: identifiers with single dots between them (`Signature.IsDotted`). A dotted
name is read as a whole, whatever the scan has read before it started
(`scan_outside_append`), so the signature of an array names its element type and nothing
else (`tokens_array`).

Records, on the other hand, may have any names. One with a hyphen in its name, say, is
never found in a signature, only the parts of the name are. For records with dotted names,
and only the keywords left out, a signature that spells the name is a reference to the
record (`TypeRecord.HoldsAttributeOf.relates`, `TypeRecord.HoldsRoutineOf.relates`).
-/

namespace TypeAtlas

namespace Signature

/-! ## Dotted names -/

/-- **An identifier**: a character that may start one, and then parts. -/
def IsIdentifier (cs : List Char) : Prop :=
  ∃ c rest, cs = c :: rest ∧ isStart c = true ∧ ∀ d ∈ rest, isPart d = true

/-- **A dotted name**: identifiers with single dots between them. -/
inductive IsDotted : List Char → Prop
  /-- An identifier is a dotted name. -/
  | identifier {cs : List Char} (h : IsIdentifier cs) : IsDotted cs
  /-- So is a dotted name with a dot and an identifier after it. -/
  | dot {front last : List Char} (hfront : IsDotted front) (hlast : IsIdentifier last) :
    IsDotted (front ++ '.' :: last)

/-- **The signature of an array**: the name of a type, and a pair of brackets for each
dimension. With no dimensions it is the name. -/
def array (name : String) (dimensions : Nat) : Signature :=
  ⟨name ++ String.join (List.replicate dimensions "[]")⟩

/-! ## Reading a dotted name -/

section Scan

variable {name rest : List Char} {c : Char}

theorem scan_outside_of_isStart (h : isStart c = true) :
    scan .outside (c :: rest) = scan (.inside [c]) rest := by
  simp [scan, ScanState.step, ScanState.ended?, ScanState.restart, h]

theorem scan_outside_of_not_isStart (h : isStart c = false) :
    scan .outside (c :: rest) = scan .outside rest := by
  simp [scan, ScanState.step, ScanState.ended?, ScanState.restart, h]

theorem scan_inside_of_isPart (h : isPart c = true) :
    scan (.inside name) (c :: rest) = scan (.inside (c :: name)) rest := by
  simp [scan, ScanState.step, ScanState.ended?, h]

theorem scan_inside_of_dot : scan (.inside name) ('.' :: rest) = scan (.afterDot name) rest := by
  have hdot : isPart '.' = false := by decide
  simp [scan, ScanState.step, ScanState.ended?, hdot]

/-- What goes on with no name ends one. -/
theorem scan_inside_of_not_isPart (h : isPart c = false) (hdot : c ≠ '.') :
    scan (.inside name) (c :: rest) = name.reverse :: scan .outside rest := by
  simp [scan, ScanState.step, ScanState.ended?, h, hdot]

theorem scan_afterDot_of_isStart (h : isStart c = true) :
    scan (.afterDot name) (c :: rest) = scan (.inside (c :: '.' :: name)) rest := by
  simp [scan, ScanState.step, ScanState.ended?, h]

end Scan

/-- In a name, the scan goes on through parts of an identifier. -/
theorem scan_inside_append {parts : List Char} (h : ∀ d ∈ parts, isPart d = true)
    (name rest : List Char) :
    scan (.inside name) (parts ++ rest) = scan (.inside (parts.reverse ++ name)) rest := by
  induction parts generalizing name with
  | nil => rfl
  | cons d parts ih =>
    obtain ⟨hd, hparts⟩ := List.forall_mem_cons.1 h
    rw [List.cons_append, scan_inside_of_isPart hd, ih hparts, List.reverse_cons,
      List.append_assoc, List.singleton_append]

/-- **A dotted name is read as a whole**: outside a name, the scan goes through it without
the end of a name in between. -/
theorem scan_outside_append {cs : List Char} (h : IsDotted cs) (rest : List Char) :
    scan .outside (cs ++ rest) = scan (.inside cs.reverse) rest := by
  induction h generalizing rest with
  | identifier h =>
    obtain ⟨c, parts, rfl, hc, hparts⟩ := h
    rw [List.cons_append, scan_outside_of_isStart hc, scan_inside_append hparts,
      List.reverse_cons]
  | @dot front last hfront hlast ih =>
    obtain ⟨c, parts, rfl, hc, hparts⟩ := hlast
    -- a dot does not end the name in front of it, if an identifier starts right after it
    calc scan .outside ((front ++ '.' :: c :: parts) ++ rest)
        = scan .outside (front ++ '.' :: c :: (parts ++ rest)) := by
          rw [List.append_assoc, List.cons_append, List.cons_append]
      _ = scan (.inside front.reverse) ('.' :: c :: (parts ++ rest)) := ih _
      _ = scan (.inside (c :: '.' :: front.reverse)) (parts ++ rest) := by
          rw [scan_inside_of_dot, scan_afterDot_of_isStart hc]
      _ = scan (.inside (front ++ '.' :: c :: parts).reverse) rest := by
          rw [scan_inside_append hparts]
          simp

/-- Brackets hold no names. -/
theorem scan_outside_brackets (dimensions : Nat) :
    scan .outside (List.replicate dimensions ['[', ']']).flatten = [] := by
  induction dimensions with
  | zero => rfl
  | succ n ih =>
    rw [List.replicate_succ, List.flatten_cons, List.cons_append, List.cons_append,
      List.nil_append, scan_outside_of_not_isStart (by decide),
      scan_outside_of_not_isStart (by decide), ih]

/-- Brackets end the name before them. -/
theorem scan_inside_brackets (name : List Char) (dimensions : Nat) :
    scan (.inside name) (List.replicate dimensions ['[', ']']).flatten = [name.reverse] := by
  cases dimensions with
  | zero => rfl
  | succ n =>
    rw [List.replicate_succ, List.flatten_cons, List.cons_append, List.cons_append,
      List.nil_append, scan_inside_of_not_isPart (by decide) (by decide),
      scan_outside_of_not_isStart (by decide), scan_outside_brackets]

theorem toList_text_array (name : String) (dimensions : Nat) :
    (array name dimensions).text.toList
      = name.toList ++ (List.replicate dimensions ['[', ']']).flatten := by
  rw [array, String.toList_append, String.toList_join, List.flatMap_replicate]
  rfl

/-- **The signature of an array names its element type** and nothing else. -/
theorem tokens_array {name : String} (h : IsDotted name.toList) (dimensions : Nat) :
    tokens (array name dimensions).text = [name] := by
  rw [tokens, toList_text_array, scan_outside_append h, scan_inside_brackets]
  simp

/-- So it refers to its element type, unless that is called by a keyword. -/
theorem mem_names_array {name : String} (h : IsDotted name.toList) (hkeyword : name ∉ keywords)
    (dimensions : Nat) : name ∈ (array name dimensions).names := by
  rw [mem_names, tokens_array h]
  exact ⟨List.mem_singleton_self name, hkeyword⟩

end Signature

/-! ## References -/

namespace TypeRecord

/-- **An attribute of a record has a type**, or arrays of it, spelled by its name. -/
def HoldsAttributeOf (a : TypeRecord) (name : String) : Prop :=
  ∃ x ∈ a.attributes, ∃ dimensions, x.signature = .array name dimensions

/-- **A routine of a record results in a type or takes it as a parameter**, or arrays of it,
spelled by its name. -/
def HoldsRoutineOf (a : TypeRecord) (name : String) : Prop :=
  ∃ x ∈ a.routines, ∃ dimensions, x.result = .array name dimensions
    ∨ ∃ p ∈ x.parameters, p.signature = .array name dimensions

variable {a b : TypeRecord}

theorem HoldsAttributeOf.relates (h : a.HoldsAttributeOf b.name)
    (hdotted : Signature.IsDotted b.name.toList) (hkeyword : b.name ∉ Signature.keywords) :
    a.Relates .attributeTypeRef b := by
  obtain ⟨x, hx, dimensions, hsignature⟩ := h
  refine ⟨⟨x, hx, ?_⟩, rfl⟩
  rw [hsignature]
  exact Signature.mem_names_array hdotted hkeyword dimensions

theorem HoldsRoutineOf.relates (h : a.HoldsRoutineOf b.name)
    (hdotted : Signature.IsDotted b.name.toList) (hkeyword : b.name ∉ Signature.keywords) :
    a.Relates .routineTypeRef b := by
  obtain ⟨x, hx, dimensions, hsignature⟩ := h
  have hnames := Signature.mem_names_array hdotted hkeyword dimensions
  refine ⟨⟨x, hx, hsignature.imp (fun hresult => ?_) ?_⟩, rfl⟩
  · rwa [hresult]
  · rintro ⟨p, hp, hparameter⟩
    exact ⟨p, hp, by rwa [hparameter]⟩

end TypeRecord

namespace TypeGraph

open TypeRecord

/-- **Records with dotted names are linked to where their names are spelled.** If an
attribute of a record is of the type with a dotted name that is no keyword, or of arrays of
it, and there is a record of this name, then the two are linked, as target and as carrier;
and so they are if the result or a parameter of a routine is. -/
theorem mem_direct_of_isDotted {settings : ScanSettings} {records : List TypeRecord}
    (hvalid : settings.isValid = true) (h : Accepted records) :
    ∃ g : TypeGraph, g.IsGraphOf settings records
      ∧ ∀ a ∈ records, ∀ b ∈ records,
        Signature.IsDotted b.name.toList → b.name ∉ Signature.keywords →
        (a.HoldsAttributeOf b.name →
          b ∈ g.direct a.name .attributeTypeRef .outgoing
            ∧ a ∈ g.direct b.name .attributeTypeRef .incoming)
        ∧ (a.HoldsRoutineOf b.name →
          b ∈ g.direct a.name .routineTypeRef .outgoing
            ∧ a ∈ g.direct b.name .routineTypeRef .incoming) := by
  obtain ⟨g, hgraph, -, hg⟩ := exists_isGraphOf hvalid h
  refine ⟨g, hgraph, fun a ha b hb hdotted hkeyword => ?_⟩
  have hlinked : ∀ {k}, a.Relates k b →
      b ∈ g.direct a.name k .outgoing ∧ a ∈ g.direct b.name k .incoming := fun hrelates =>
    ⟨(g.mem_direct_outgoing ((hg a).2 ha)).2 ⟨(hg b).2 hb, hrelates⟩,
      (g.mem_direct_incoming ((hg b).2 hb)).2 ⟨(hg a).2 ha, hrelates⟩⟩
  exact ⟨fun hattribute => hlinked (hattribute.relates hdotted hkeyword),
    fun hroutine => hlinked (hroutine.relates hdotted hkeyword)⟩

/-- A farm with a gate, of a type in a package, and a type with a hyphen in its name. -/
def farm : List TypeRecord :=
  [{ name := "Farm", kind := .standard,
     attributes := [{ name := "gates", signature := ⟨"wood.Gate[][]"⟩ },
       { name := "post", signature := ⟨"gate-post"⟩ }],
     routines := [
       { name := "mend", result := ⟨"void"⟩,
         parameters := [{ signature := ⟨"wood.Gate"⟩ }, { signature := ⟨"gate-post[]"⟩ }] }] },
   { name := "wood.Gate", kind := .standard },
   { name := "gate-post", kind := .standard }]

theorem mem_direct_of_isDotted_farm :
    ∃ g : TypeGraph, ofRecords {} farm = .ok g
      ∧ farm[1] ∈ g.direct "Farm" .attributeTypeRef .outgoing
      ∧ farm[0] ∈ g.direct "wood.Gate" .attributeTypeRef .incoming
      ∧ farm[1] ∈ g.direct "Farm" .routineTypeRef .outgoing
      ∧ farm[0] ∈ g.direct "wood.Gate" .routineTypeRef .incoming := by
  obtain ⟨g, hgraph, hlinked⟩ := @mem_direct_of_isDotted {} farm (by decide) (by decide)
  have hdotted : Signature.IsDotted (farm[1].name.toList) :=
    .dot (.identifier ⟨'w', ['o', 'o', 'd'], rfl, by decide, List.all_eq_true.1 (by decide)⟩)
      ⟨'G', ['a', 't', 'e'], rfl, by decide, List.all_eq_true.1 (by decide)⟩
  obtain ⟨hattribute, hroutine⟩ :=
    hlinked farm[0] (by decide) farm[1] (by decide) hdotted (by decide)
  obtain ⟨hout, hin⟩ := hattribute ⟨farm[0].attributes[0], by decide, 2, by decide⟩
  obtain ⟨hout', hin'⟩ := hroutine ⟨farm[0].routines[0], by decide, 0, .inr
    ⟨farm[0].routines[0].parameters[0], by decide, by decide⟩⟩
  exact ⟨g, hgraph.ofRecords_eq, hout, hin, hout', hin'⟩

/-- **A name that is not dotted is not found in a signature.** The farm has an attribute of
the type with the hyphen and a routine that takes arrays of it, and is not linked to it. -/
theorem exists_not_mem_direct_of_not_isDotted :
    ∃ g : TypeGraph, ofRecords {} farm = .ok g
      ∧ "gate-post" ∉ Signature.keywords
      ∧ farm[0].HoldsAttributeOf "gate-post" ∧ farm[0].HoldsRoutineOf "gate-post"
      ∧ farm[2] ∉ g.direct "Farm" .attributeTypeRef .outgoing
      ∧ farm[0] ∉ g.direct "gate-post" .attributeTypeRef .incoming
      ∧ farm[2] ∉ g.direct "Farm" .routineTypeRef .outgoing
      ∧ farm[0] ∉ g.direct "gate-post" .routineTypeRef .incoming := by
  obtain ⟨g, hgraph, -, hg⟩ := @exists_isGraphOf {} farm (by decide) (by decide)
  have hfarm : farm[0] ∈ g.records := (hg _).2 (by decide)
  have hpost : farm[2] ∈ g.records := (hg _).2 (by decide)
  refine ⟨g, hgraph.ofRecords_eq, by decide, ⟨farm[0].attributes[1], by decide, 0, by decide⟩,
    ⟨farm[0].routines[0], by decide, 1, .inr
      ⟨farm[0].routines[0].parameters[1], by decide, by decide⟩⟩, ?_, ?_, ?_, ?_⟩
  · exact fun hlinked => absurd ((g.mem_direct_outgoing hfarm).1 hlinked).2 (by decide)
  · exact fun hlinked => absurd ((g.mem_direct_incoming hpost).1 hlinked).2 (by decide)
  · exact fun hlinked => absurd ((g.mem_direct_outgoing hfarm).1 hlinked).2 (by decide)
  · exact fun hlinked => absurd ((g.mem_direct_incoming hpost).1 hlinked).2 (by decide)

end TypeGraph

end TypeAtlas
