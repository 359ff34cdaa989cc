import Mathlib.Data.List.DropRight
import Mathlib.Data.List.Forall2
import TypeAtlas.Proofs.JsonDocument
import TypeAtlas.Proofs.Population
import TypeAtlas.Proofs.Spelling

/-!
# Faults of a document

Several things may be wrong with a document at once, and the graph it was to become is
refused for one of them. `Fault` says for which: a text that is not JSON comes first, then
settings without a root type, then a document that does not decode to records, and then
the records themselves. Of records in a list the first name that comes twice is reported,
of records in a map the first key that is not the name of its record, in the order of
names; only after that an empty name is.

The two reports are found by a look at neighbours in the arranged list and by a search
along the keys (`TypeRecord.duplicate?_arrange_eq_some_iff`, `misfiled?_eq_some_iff`).
A text is refused for its fault (`Fault.ofJson`), and a text without one has a graph
(`Flawless.exists_ofJson`).
-/

namespace TypeAtlas

/-! ## Root types -/

/-- A text without the white space at its ends. -/
def Text.trim (s : String) : String :=
  String.ofList ((s.toList.dropWhile isBlankChar).rdropWhile isBlankChar)

theorem Text.trim_eq_empty_iff {s : String} : trim s = "" ↔ isBlank s = true := by
  rw [trim, isBlank, List.all_eq_true, String.ofList_eq_empty_iff, List.rdropWhile_eq_nil_iff]
  refine ⟨fun h c hc => ?_, fun h c hc => h c ((List.dropWhile_sublist _).subset hc)⟩
  rw [← List.takeWhile_append_dropWhile (l := s.toList), List.mem_append] at hc
  exact hc.elim List.mem_takeWhile_imp (h c)

theorem ScanSettings.isValid_iff {settings : ScanSettings} :
    settings.isValid = true ↔ Text.trim settings.rootType ≠ "" := by
  rw [isValid, Bool.not_eq_true', ← Bool.not_eq_true, ← Text.trim_eq_empty_iff]

/-! ## Documents that hold records -/

/-- A list with a first value that does not decode. -/
theorem mapM_eq_error {α β ε : Type} {f : α → Except ε β} {before after : List α} {x : α}
    {e : ε} (hbefore : ∀ y ∈ before, ∃ z, f y = .ok z) (h : f x = .error e) :
    (before ++ x :: after).mapM f = .error e := by
  induction before with
  | nil =>
    rw [List.nil_append, List.mapM_cons, h]
    rfl
  | cons y before ih =>
    obtain ⟨z, hz⟩ := hbefore y List.mem_cons_self
    rw [List.cons_append, List.mapM_cons, hz,
      ih fun other hother => hbefore other (List.mem_cons_of_mem y hother)]
    rfl

/-- Either all values of a list decode, or there is a first one that does not. -/
theorem forall₂_or_exists_error {α β ε : Type} (f : α → Except ε β) (xs : List α) :
    (∃ ys, List.Forall₂ (fun y x => f x = .ok y) ys xs)
      ∨ ∃ before x after e, xs = before ++ x :: after ∧ (∀ y ∈ before, ∃ z, f y = .ok z)
        ∧ f x = .error e := by
  induction xs with
  | nil => exact .inl ⟨[], .nil⟩
  | cons x xs ih =>
    cases hx : f x with
    | error e => exact .inr ⟨[], x, xs, e, rfl, nofun, hx⟩
    | ok z =>
      rcases ih with ⟨ys, hys⟩ | ⟨before, y, after, e, rfl, hbefore, hy⟩
      · exact .inl ⟨z :: ys, .cons hx hys⟩
      · exact .inr ⟨x :: before, y, after, e, rfl, List.forall_mem_cons.2 ⟨⟨z, hx⟩, hbefore⟩, hy⟩

/-- Whether a record is what a value decodes to. -/
def TypeRecord.IsFrom (r : TypeRecord) (d : Data) : Prop := layout.decode d = .ok r

/-- **Why a document does not hold records**: an item of a list or a value of a map does
not decode, and is the first that does not, or the document is neither. -/
inductive Refuses : Data → DecodeError → Prop
  | item {before after : List Data} {d : Data} {reason : DecodeError}
      (hbefore : ∀ d ∈ before, ∃ r : TypeRecord, r.IsFrom d)
      (h : TypeRecord.layout.decode d = .error reason) :
      Refuses (.list (before ++ d :: after)) reason
  | value {before after : List (String × Data)} {key : String} {d : Data}
      {reason : DecodeError}
      (hbefore : ∀ field ∈ before, ∃ r : TypeRecord, r.IsFrom field.2)
      (h : TypeRecord.layout.decode d = .error reason) :
      Refuses (.map (before ++ (key, d) :: after)) reason
  | neither {document : Data} (hlist : ∀ items, document ≠ .list items)
      (hmap : ∀ entries, document ≠ .map entries) :
      Refuses document (.wrongSort document .map)

/-- The records of the values of a map, under the keys of the values. -/
theorem exists_entries {given : List (String × Data)} {records : List TypeRecord}
    (h : List.Forall₂ (fun r field => TypeRecord.IsFrom r field.2) records given) :
    ∃ entries, List.Forall₂ (fun (entry : String × TypeRecord) field =>
      field.1 = entry.1 ∧ entry.2.IsFrom field.2) entries given := by
  induction h with
  | nil => exact ⟨[], .nil⟩
  | @cons r field _ _ hr _ ih =>
    obtain ⟨entries, hentries⟩ := ih
    exact ⟨(field.1, r) :: entries, .cons ⟨rfl, hr⟩ hentries⟩

/-- Every document holds records, in a list or in a map, or is refused. -/
theorem listOf_or_mapOf_or_refuses (document : Data) :
    (∃ records, ListOf TypeRecord.IsFrom records document)
      ∨ (∃ entries, MapOf TypeRecord.IsFrom entries document)
      ∨ ∃ reason, Refuses document reason := by
  cases document with
  | list items =>
    rcases forall₂_or_exists_error TypeRecord.layout.decode items with
      ⟨records, h⟩ | ⟨before, d, after, reason, rfl, hbefore, hd⟩
    · exact .inl ⟨records, items, rfl, h⟩
    · exact .inr (.inr ⟨reason, .item hbefore hd⟩)
  | map given =>
    rcases forall₂_or_exists_error (fun field => TypeRecord.layout.decode field.2) given with
      ⟨records, h⟩ | ⟨before, ⟨key, d⟩, after, reason, rfl, hbefore, hd⟩
    · obtain ⟨entries, hentries⟩ := exists_entries h
      exact .inr (.inl ⟨entries, given, rfl, hentries⟩)
    · exact .inr (.inr ⟨reason, .value hbefore hd⟩)
  | _ => exact .inr (.inr ⟨_, .neither nofun nofun⟩)

/-- A document that is refused decodes to no records. -/
theorem Refuses.decode {document : Data} {reason : DecodeError} (h : Refuses document reason) :
    (∀ items, document = .list items →
        document.asListOf TypeRecord.layout.decode = .error reason)
      ∧ ((∀ items, document ≠ .list items) →
        document.asMapOf TypeRecord.layout.decode = .error reason) := by
  cases h with
  | item hbefore hd => exact ⟨fun _ _ => mapM_eq_error hbefore hd, fun h => absurd rfl (h _)⟩
  | value hbefore hd =>
    refine ⟨nofun, fun _ => mapM_eq_error (fun field hfield => ?_) ?_⟩
    · obtain ⟨r, hr⟩ := hbefore field hfield
      exact ⟨(field.1, r), by rw [hr]; rfl⟩
    · rw [hd]
      rfl
  | neither hlist hmap =>
    refine ⟨fun items hitems => absurd hitems (hlist items), fun _ => ?_⟩
    cases document with
    | map entries => exact absurd rfl (hmap entries)
    | _ => rfl

namespace TypeGraph

open NameList TypeRecord

variable {settings : ScanSettings} {text : String} {document : Data}
  {records : List TypeRecord} {entries : List (String × TypeRecord)}

/-! ## Faults of records -/

/-- Records of which one has the empty name are not assembled. -/
theorem assemble_of_unnamed (settings : ScanSettings)
    (h : records.Pairwise fun a b => a.name < b.name) (hempty : ∃ r ∈ records, r.name = "") :
    assemble settings records h = .error .unnamed := by
  obtain ⟨r, hr, hname⟩ := hempty
  unfold assemble
  split
  · rfl
  · next p hp => exact absurd hname (Population.named_of_fill hp r hr)

theorem ofRecords_of_repeats (hvalid : settings.isValid = true) {name : String}
    (h : IsFirst (Repeats records) name) :
    ofRecords settings records = .error (.duplicate name) := by
  unfold ofRecords
  rw [if_neg (by simp [hvalid])]
  split
  · next other hother => rw [(duplicate?_arrange_eq_some_iff.1 hother).eq h]
  · next hnone => cases hnone.symm.trans (duplicate?_arrange_eq_some_iff.2 h)

theorem ofRecords_of_unnamed (hvalid : settings.isValid = true)
    (hdistinct : records.Pairwise fun a b => a.name ≠ b.name)
    (hempty : ∃ r ∈ records, r.name = "") :
    ofRecords settings records = .error .unnamed := by
  obtain ⟨r, hr, hname⟩ := hempty
  unfold ofRecords
  rw [if_neg (by simp [hvalid])]
  split
  · next hsome => cases (duplicate?_arrange_eq_none_iff.2 hdistinct).symm.trans hsome
  · exact assemble_of_unnamed settings _ ⟨r, mem_arrange.2 hr, hname⟩

/-! ## Faults of entries -/

/-- **Whether a key misfiles its record**: the record under it has another name. -/
def Misfiles (entries : List (String × TypeRecord)) (key : String) : Prop :=
  ∃ r, (key, r) ∈ entries ∧ key ≠ r.name

/-- Under ascending keys there is one record for each. -/
theorem eq_of_mem_entries (h : entries.Pairwise fun a b => a.1 < b.1) {key : String}
    {r s : TypeRecord} (hr : (key, r) ∈ entries) (hs : (key, s) ∈ entries) : r = s := by
  have hnodup : (entries.map (·.1)).Nodup :=
    List.pairwise_map.2 (h.imp fun hlt => String.ne_of_lt hlt)
  exact (Prod.mk.inj (List.inj_on_of_nodup_map hnodup hr hs rfl)).2

theorem misfiled?_eq_none_iff :
    misfiled? entries = none ↔ ∀ entry ∈ entries, entry.1 = entry.2.name := by
  simp [misfiled?]

/-- What is found along ascending keys is under the first key that misfiles. -/
theorem isFirst_of_misfiled? (h : entries.Pairwise fun a b => a.1 < b.1) {key : String}
    {r : TypeRecord} (hfound : misfiled? entries = some (key, r)) :
    (key, r) ∈ entries ∧ IsFirst (Misfiles entries) key := by
  obtain ⟨hne, before, after, rfl, hbefore⟩ := List.find?_eq_some_iff_append.1 hfound
  have hmem : (key, r) ∈ before ++ (key, r) :: after := by simp
  refine ⟨hmem, ⟨r, hmem, of_decide_eq_true hne⟩, ?_⟩
  rintro other ⟨s, hs, hother⟩
  rcases List.mem_append.1 hs with hs | hs
  · exact absurd hother (by simpa using hbefore _ hs)
  · rcases List.mem_cons.1 hs with heq | hs
    · exact (Prod.mk.inj heq).1 ▸ String.le_refl _
    · have hlt := (List.pairwise_cons.1 (List.pairwise_append.1 h).2.1).1 _ hs
      exact String.not_lt.1 (String.lt_asymm hlt)

/-- **The record that is found under a wrong key** is the one under the first such key. -/
theorem misfiled?_eq_some_iff (h : entries.Pairwise fun a b => a.1 < b.1) {key : String}
    {r : TypeRecord} :
    misfiled? entries = some (key, r) ↔ (key, r) ∈ entries ∧ IsFirst (Misfiles entries) key := by
  refine ⟨isFirst_of_misfiled? h, fun ⟨hmem, hfirst⟩ => ?_⟩
  cases hfound : misfiled? entries with
  | none =>
    obtain ⟨s, hs, hne⟩ := hfirst.1
    exact absurd (misfiled?_eq_none_iff.1 hfound _ hs) hne
  | some entry =>
    obtain ⟨other, s⟩ := entry
    obtain ⟨hother, hotherFirst⟩ := isFirst_of_misfiled? h hfound
    obtain rfl := hotherFirst.eq hfirst
    rw [eq_of_mem_entries h hother hmem]

theorem ofEntries_of_misfiles (hvalid : settings.isValid = true)
    (h : entries.Pairwise fun a b => a.1 < b.1) {key : String} {r : TypeRecord}
    (hmem : (key, r) ∈ entries) (hfirst : IsFirst (Misfiles entries) key) :
    ofEntries settings entries = .error (.misfiled key r.name) := by
  have hfound := (misfiled?_eq_some_iff h).2 ⟨hmem, hfirst⟩
  rw [← Entries.ofList_eq_self h] at hfound
  unfold ofEntries
  rw [if_neg (by simp [hvalid])]
  split
  · next other s hother =>
    obtain ⟨rfl, rfl⟩ := Prod.mk.inj (Option.some.inj (hother.symm.trans hfound))
    rfl
  · next hnone => cases hnone.symm.trans hfound

theorem ofEntries_of_unnamed (hvalid : settings.isValid = true)
    (h : entries.Pairwise fun a b => a.1 < b.1)
    (hfiled : ∀ entry ∈ entries, entry.1 = entry.2.name)
    (hempty : ∃ entry ∈ entries, entry.2.name = "") :
    ofEntries settings entries = .error .unnamed := by
  have hnone := misfiled?_eq_none_iff.2 hfiled
  rw [← Entries.ofList_eq_self h] at hnone hempty
  unfold ofEntries
  rw [if_neg (by simp [hvalid])]
  split
  · next hsome => cases hnone.symm.trans hsome
  · obtain ⟨entry, hentry, hname⟩ := hempty
    exact assemble_of_unnamed settings _ ⟨entry.2, List.mem_map_of_mem hentry, hname⟩

theorem exists_ofEntries (hvalid : settings.isValid = true)
    (h : entries.Pairwise fun a b => a.1 < b.1)
    (hfiled : ∀ entry ∈ entries, entry.1 = entry.2.name)
    (hnamed : ∀ entry ∈ entries, entry.2.name ≠ "") :
    ∃ g : TypeGraph, ofEntries settings entries = .ok g ∧ g.settings = settings
      ∧ g.records = entries.map (·.2) := by
  have hnone := misfiled?_eq_none_iff.2 hfiled
  have hself := Entries.ofList_eq_self h
  rw [← hself] at hnone
  unfold ofEntries
  rw [if_neg (by simp [hvalid])]
  split
  · next hsome => cases hnone.symm.trans hsome
  · have hrecords : ∀ r ∈ (Entries.ofList entries).map (·.2), r.name ≠ "" := by
      rw [hself]
      exact List.forall_mem_map.2 hnamed
    obtain ⟨p, hp⟩ := Population.exists_fill hrecords {}
    obtain ⟨g, hg, hsettings, hrecords⟩ := exists_assemble settings _ hp
    exact ⟨g, hg, hsettings, hrecords.trans (by rw [hself])⟩

/-! ## Faults of documents -/

/-- **A text is admitted** as a document under settings: it is JSON, and the settings name a
root type. -/
def Admits (settings : ScanSettings) (text : String) (document : Data) : Prop :=
  Json.Document document text ∧ Text.trim settings.rootType ≠ ""

/-- **What a text is refused for** under settings. -/
inductive Fault (settings : ScanSettings) (text : String) : BuildError → Prop
  /-- The text is not JSON. -/
  | notJson (h : ¬ Json.IsJson text) : Fault settings text .notJson
  /-- The text is JSON, and the settings name no root type. -/
  | noRootType (h : Json.IsJson text) (hroot : Text.trim settings.rootType = "") :
      Fault settings text .noRootType
  /-- The document does not hold records. -/
  | undecodable {document : Data} {reason : DecodeError} (hadmits : Admits settings text document)
      (h : Refuses document reason) : Fault settings text (.undecodable reason)
  /-- Names come twice in a list; the first of them is reported. -/
  | duplicate {document : Data} {records : List TypeRecord} {name : String}
      (hadmits : Admits settings text document) (h : ListOf IsFrom records document)
      (hfirst : IsFirst (Repeats records) name) : Fault settings text (.duplicate name)
  /-- The names of a list are distinct, and one is empty. -/
  | unnamedItem {document : Data} {records : List TypeRecord}
      (hadmits : Admits settings text document) (h : ListOf IsFrom records document)
      (hdistinct : records.Pairwise fun a b => a.name ≠ b.name)
      (hempty : ∃ r ∈ records, r.name = "") : Fault settings text .unnamed
  /-- Keys of a map are not the names of their records; the first of them is reported. -/
  | misfiled {document : Data} {entries : List (String × TypeRecord)} {key : String}
      {r : TypeRecord} (hadmits : Admits settings text document) (h : MapOf IsFrom entries document)
      (hmem : (key, r) ∈ entries) (hfirst : IsFirst (Misfiles entries) key) :
      Fault settings text (.misfiled key r.name)
  /-- The keys of a map are the names of their records, and one is empty. -/
  | unnamedEntry {document : Data} {entries : List (String × TypeRecord)}
      (hadmits : Admits settings text document) (h : MapOf IsFrom entries document)
      (hfiled : ∀ entry ∈ entries, entry.1 = entry.2.name)
      (hempty : ∃ entry ∈ entries, entry.2.name = "") : Fault settings text .unnamed

/-- **A text without a fault** under settings. -/
inductive Flawless (settings : ScanSettings) (text : String) : Prop
  /-- A list of records with distinct names, none of them empty. -/
  | list {document : Data} {records : List TypeRecord} (hadmits : Admits settings text document)
      (h : ListOf IsFrom records document)
      (hdistinct : records.Pairwise fun a b => a.name ≠ b.name)
      (hnamed : ∀ r ∈ records, r.name ≠ "")
  /-- A map of records under their names, none of them empty. -/
  | map {document : Data} {entries : List (String × TypeRecord)}
      (hadmits : Admits settings text document) (h : MapOf IsFrom entries document)
      (hfiled : ∀ entry ∈ entries, entry.1 = entry.2.name)
      (hnamed : ∀ entry ∈ entries, entry.2.name ≠ "")

theorem Admits.read?_eq (h : Admits settings text document) : Json.read? text = some document :=
  Json.read?_eq_some_iff.2 h.1

theorem Admits.isValid (h : Admits settings text document) : settings.isValid = true :=
  ScanSettings.isValid_iff.2 h.2

theorem ofJson_of_refuses (hadmits : Admits settings text document) {reason : DecodeError}
    (h : Refuses document reason) : ofJson settings text = .error (.undecodable reason) := by
  obtain ⟨hlist, hmap⟩ := h.decode
  cases document with
  | list items => simp [ofJson, hadmits.read?_eq, hadmits.isValid, hlist items rfl]
  | _ => simp [ofJson, hadmits.read?_eq, hadmits.isValid, hmap nofun]

theorem ofJson_of_listOf (hadmits : Admits settings text document)
    (h : ListOf IsFrom records document) : ofJson settings text = ofRecords settings records := by
  have hdecode := Decodes.listOf (fun _ _ h => h) records document h
  obtain ⟨items, rfl, -⟩ := h
  simp [ofJson, hadmits.read?_eq, hadmits.isValid, hdecode]

theorem ofJson_of_mapOf (hadmits : Admits settings text document)
    (h : MapOf IsFrom entries document) : ofJson settings text = ofEntries settings entries := by
  have hdecode := Decodes.mapOf (fun _ _ h => h) entries document h
  obtain ⟨given, rfl, -⟩ := h
  simp [ofJson, hadmits.read?_eq, hadmits.isValid, hdecode]

/-- The keys of a map that is read are ascending. -/
theorem Admits.pairwise_entries (hadmits : Admits settings text document)
    (h : MapOf IsFrom entries document) : entries.Pairwise fun a b => a.1 < b.1 := by
  obtain ⟨given, rfl, hgiven⟩ := h
  have hkeys : entries.map (·.1) = given.map (·.1) := by
    rw [← List.forall₂_eq_eq_eq, List.forall₂_map_left_iff, List.forall₂_map_right_iff]
    exact hgiven.imp fun _ _ hentry => hentry.1.symm
  rw [← List.pairwise_map, hkeys, List.pairwise_map]
  exact hadmits.1.pairwise_entries

/-- **Every text has a fault or is flawless.** -/
theorem exists_fault_or_flawless (settings : ScanSettings) (text : String) :
    (∃ e, Fault settings text e) ∨ Flawless settings text := by
  by_cases hjson : Json.IsJson text
  · by_cases hroot : Text.trim settings.rootType = ""
    · exact .inl ⟨_, .noRootType hjson hroot⟩
    · obtain ⟨document, hdocument⟩ := hjson
      have hadmits : Admits settings text document := ⟨hdocument, hroot⟩
      rcases listOf_or_mapOf_or_refuses document with
        ⟨records, h⟩ | ⟨entries, h⟩ | ⟨reason, h⟩
      · -- the checks of the builder tell the cases apart
        cases hfound : duplicate? (arrange records) with
        | some name =>
          exact .inl ⟨_, .duplicate hadmits h (duplicate?_arrange_eq_some_iff.1 hfound)⟩
        | none =>
          have hdistinct := duplicate?_arrange_eq_none_iff.1 hfound
          by_cases hempty : ∃ r ∈ records, r.name = ""
          · exact .inl ⟨_, .unnamedItem hadmits h hdistinct hempty⟩
          · exact .inr (.list hadmits h hdistinct fun r hr hname => hempty ⟨r, hr, hname⟩)
      · cases hfound : misfiled? entries with
        | some entry =>
          obtain ⟨hmem, hfirst⟩ := isFirst_of_misfiled? (hadmits.pairwise_entries h) hfound
          exact .inl ⟨_, .misfiled hadmits h hmem hfirst⟩
        | none =>
          have hfiled := misfiled?_eq_none_iff.1 hfound
          by_cases hempty : ∃ entry ∈ entries, entry.2.name = ""
          · exact .inl ⟨_, .unnamedEntry hadmits h hfiled hempty⟩
          · exact .inr (.map hadmits h hfiled fun entry hentry hname =>
              hempty ⟨entry, hentry, hname⟩)
      · exact .inl ⟨_, .undecodable hadmits h⟩
  · exact .inl ⟨_, .notJson hjson⟩

/-- A fault is what the text is refused for. -/
theorem Fault.ofJson {e : BuildError} (h : Fault settings text e) :
    ofJson settings text = .error e := by
  cases h with
  | notJson h =>
    unfold TypeGraph.ofJson
    rw [Json.read?_eq_none_iff.2 h]
  | noRootType h hroot =>
    obtain ⟨document, hdocument⟩ := h
    have hvalid : ¬ settings.isValid = true := fun h => ScanSettings.isValid_iff.1 h hroot
    unfold TypeGraph.ofJson
    rw [Json.read?_eq_some_iff.2 hdocument]
    dsimp only
    rw [if_pos (by simpa using hvalid)]
  | undecodable hadmits h => exact ofJson_of_refuses hadmits h
  | duplicate hadmits h hfirst =>
    rw [ofJson_of_listOf hadmits h, ofRecords_of_repeats hadmits.isValid hfirst]
  | unnamedItem hadmits h hdistinct hempty =>
    rw [ofJson_of_listOf hadmits h, ofRecords_of_unnamed hadmits.isValid hdistinct hempty]
  | misfiled hadmits h hmem hfirst =>
    rw [ofJson_of_mapOf hadmits h,
      ofEntries_of_misfiles hadmits.isValid (hadmits.pairwise_entries h) hmem hfirst]
  | unnamedEntry hadmits h hfiled hempty =>
    rw [ofJson_of_mapOf hadmits h,
      ofEntries_of_unnamed hadmits.isValid (hadmits.pairwise_entries h) hfiled hempty]

/-- A text without a fault has a graph. -/
theorem Flawless.exists_ofJson (h : Flawless settings text) :
    ∃ g, TypeGraph.ofJson settings text = .ok g := by
  cases h with
  | list hadmits h hdistinct hnamed =>
    obtain ⟨g, hg, -⟩ := exists_ofRecords hadmits.isValid hdistinct hnamed
    exact ⟨g, (ofJson_of_listOf hadmits h).trans hg⟩
  | map hadmits h hfiled hnamed =>
    obtain ⟨g, hg, -⟩ :=
      exists_ofEntries hadmits.isValid (hadmits.pairwise_entries h) hfiled hnamed
    exact ⟨g, (ofJson_of_mapOf hadmits h).trans hg⟩

/-- **What becomes of a text**: it is refused for a fault exactly if it has the fault, and
it has a graph exactly if it has none. Messages quote what is reported. -/
theorem ofJson_outcome (settings : ScanSettings) (text : String) :
    (∀ e, ofJson settings text = .error e ↔ Fault settings text e)
      ∧ ((∃ g, ofJson settings text = .ok g) ↔ Flawless settings text)
      ∧ (∀ name, (BuildError.duplicate name).message
        = "Invalid record: duplicate record '" ++ name ++ "'")
      ∧ ∀ key name, (BuildError.misfiled key name).message
        = "Invalid record: key '" ++ key ++ "' does not match record name '" ++ name ++ "'" := by
  refine ⟨?_, ?_, fun _ => rfl, fun _ _ => rfl⟩
  all_goals
    rcases exists_fault_or_flawless settings text with ⟨fault, hfault⟩ | hflawless
  · refine fun e => ⟨fun he => ?_, Fault.ofJson⟩
    rwa [Except.error.inj (he.symm.trans hfault.ofJson)]
  · obtain ⟨g, hg⟩ := hflawless.exists_ofJson
    refine fun e => ⟨fun he => ?_, Fault.ofJson⟩
    cases hg.symm.trans he
  · refine ⟨fun ⟨g, hg⟩ => ?_, Flawless.exists_ofJson⟩
    cases hfault.ofJson.symm.trans hg
  · exact ⟨fun _ => hflawless, Flawless.exists_ofJson⟩

end TypeGraph

end TypeAtlas
