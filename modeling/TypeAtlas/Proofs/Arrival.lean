import TypeAtlas.Proofs.Codec
import TypeAtlas.Proofs.Fault
import TypeAtlas.Proofs.JsonWriting

/-!
# How records arrive does not matter

Records arrive in a list, in a map under their names, or in a document that holds either,
and in any order. What becomes of them is the same: the same graph, or the same error.

A list is checked for names that come twice, and the name reported is the first of them,
whichever records come first. Without such names there is one arrangement of the records,
so it is the same list that is assembled (`ofRecords_eq_assemble`), and a map of the
records under their names comes to this list as well, in whatever order it is gone
through (`ofEntries_eq_assemble`). A document is decoded to one or the other.

`IsGraphOf` is what the later modules use of this: a graph that all arrivals of some
records come to. Records that are accepted have one (`exists_isGraphOf`).
-/

namespace TypeAtlas

/-- **The records of a list under their names**, as the entries of a map. -/
def TypeRecord.keyed (records : List TypeRecord) : List (String × TypeRecord) :=
  records.map fun r => (r.name, r)

/-- **Records that are accepted**: they have distinct names, none of them empty. -/
structure TypeRecord.Accepted (records : List TypeRecord) : Prop where
  /-- No two records have the same name. -/
  distinct : records.Pairwise fun a b => a.name ≠ b.name
  /-- Every record has a name. -/
  named : ∀ r ∈ records, r.name ≠ ""

instance (records : List TypeRecord) : Decidable (TypeRecord.Accepted records) :=
  decidable_of_iff
    ((records.Pairwise fun a b => a.name ≠ b.name) ∧ ∀ r ∈ records, r.name ≠ "")
    ⟨fun h => ⟨h.1, h.2⟩, fun h => ⟨h.distinct, h.named⟩⟩

namespace TypeGraph

open TypeRecord

variable {settings : ScanSettings} {records others : List TypeRecord}

/-! ## Lists and maps -/

/-- Nothing is built under settings that name no root type. -/
theorem ofRecords_of_invalid (h : ¬ settings.isValid = true) (records : List TypeRecord) :
    ofRecords settings records = .error .noRootType := by
  simp [ofRecords, h]

theorem assemble_congr (heq : records = others)
    {h : records.Pairwise fun a b => a.name < b.name}
    {h' : others.Pairwise fun a b => a.name < b.name} :
    assemble settings records h = assemble settings others h' := by
  subst heq
  rfl

/-- Records with distinct names are assembled in their arrangement. -/
theorem ofRecords_eq_assemble (hvalid : settings.isValid = true)
    (h : records.Pairwise fun a b => a.name ≠ b.name) :
    ofRecords settings records = assemble settings (arrange records) (pairwise_lt_arrange h) := by
  unfold ofRecords
  rw [if_neg (by simp [hvalid])]
  split
  · next hsome => cases (duplicate?_arrange_eq_none_iff.2 h).symm.trans hsome
  · rfl

/-- **The order of the records of a list does not matter**, also where names come twice or
are empty. -/
theorem ofRecords_eq_of_perm (settings : ScanSettings) (h : records.Perm others) :
    ofRecords settings records = ofRecords settings others := by
  by_cases hvalid : settings.isValid = true
  · cases hfound : duplicate? (arrange others) with
    | some name =>
      have hfirst := duplicate?_arrange_eq_some_iff.1 hfound
      rw [ofRecords_of_repeats hvalid hfirst,
        ofRecords_of_repeats hvalid (repeats_of_perm h ▸ hfirst)]
    | none =>
      have hdistinct := duplicate?_arrange_eq_none_iff.1 hfound
      rw [ofRecords_eq_assemble hvalid hdistinct,
        ofRecords_eq_assemble hvalid ((h.pairwise_iff Ne.symm).2 hdistinct)]
      exact assemble_congr (arrange_eq_of_perm h hdistinct)
  · rw [ofRecords_of_invalid hvalid, ofRecords_of_invalid hvalid]

/-- **Values under the names of records** are arranged in the order of the records,
whatever the order of the entries. -/
theorem ofList_eq_map_arrange {α : Type} {value : TypeRecord → α} {entries : List (String × α)}
    (h : records.Pairwise fun a b => a.name ≠ b.name)
    (hperm : entries.Perm (records.map fun r => (r.name, value r))) :
    Entries.ofList entries = (arrange records).map fun r => (r.name, value r) := by
  have hkeys : (records.map fun r => (r.name, value r)).Pairwise fun a b => a.1 ≠ b.1 :=
    List.pairwise_map.2 h
  refine Entries.eq_of_perm (Entries.pairwise_ofList entries)
    (List.pairwise_map.2 (pairwise_lt_arrange h)) ?_
  exact (Entries.perm_ofList ((hperm.pairwise_iff Ne.symm).2 hkeys)).trans
    (hperm.trans ((perm_arrange records).symm.map _))

/-- Records under their names are assembled in their arrangement. -/
theorem ofEntries_eq_assemble (hvalid : settings.isValid = true)
    (h : records.Pairwise fun a b => a.name ≠ b.name) {entries : List (String × TypeRecord)}
    (hperm : entries.Perm (keyed records)) :
    ofEntries settings entries = assemble settings (arrange records) (pairwise_lt_arrange h) := by
  have hentries := ofList_eq_map_arrange h hperm
  have hnone : misfiled? (Entries.ofList entries) = none := by
    rw [hentries, misfiled?_eq_none_iff]
    exact List.forall_mem_map.2 fun _ _ => rfl
  unfold ofEntries
  rw [if_neg (by simp [hvalid])]
  split
  · next hsome => cases hnone.symm.trans hsome
  · exact assemble_congr (by rw [hentries, List.map_map, Function.comp_def, List.map_id'])

/-- **A map of records under their names is built like the list of them.** -/
theorem ofEntries_eq_ofRecords (settings : ScanSettings)
    (h : records.Pairwise fun a b => a.name ≠ b.name) {entries : List (String × TypeRecord)}
    (hperm : entries.Perm (keyed records)) :
    ofEntries settings entries = ofRecords settings records := by
  by_cases hvalid : settings.isValid = true
  · rw [ofEntries_eq_assemble hvalid h hperm, ofRecords_eq_assemble hvalid h]
  · rw [ofRecords_of_invalid hvalid]
    simp [ofEntries, hvalid]

/-! ## Documents -/

/-- Whatever a document holds, nothing is built under settings that name no root type. -/
theorem ofJson_of_invalid {text : String} {document : Data} (h : ¬ settings.isValid = true)
    (hdocument : Json.Document document text) : ofJson settings text = .error .noRootType := by
  have hroot : Text.trim settings.rootType = "" :=
    Classical.byContradiction fun hne => h (ScanSettings.isValid_iff.2 hne)
  exact (Fault.noRootType ⟨document, hdocument⟩ hroot).ofJson

theorem isFrom_encode (r : TypeRecord) : r.IsFrom r.encode :=
  reads.decodes r _ r.spelling_encode

/-- **A document with the encoded records in a list** is built like the list. -/
theorem ofJson_eq_ofRecords (settings : ScanSettings) (records : List TypeRecord)
    {text : String} (hdocument : Json.Document (.list (records.map (·.encode))) text) :
    ofJson settings text = ofRecords settings records := by
  by_cases hvalid : settings.isValid = true
  · exact ofJson_of_listOf ⟨hdocument, ScanSettings.isValid_iff.1 hvalid⟩
      (.map isFrom_encode records)
  · rw [ofJson_of_invalid hvalid hdocument, ofRecords_of_invalid hvalid]

/-- **A document with the encoded records under their names** is built like the list. -/
theorem ofJson_fields_eq_ofRecords (settings : ScanSettings)
    (h : records.Pairwise fun a b => a.name ≠ b.name) {fields : List (String × Data)}
    (hperm : fields.Perm (records.map fun r => (r.name, r.encode))) {text : String}
    (hdocument : Json.Document (.ofFields fields) text) :
    ofJson settings text = ofRecords settings records := by
  by_cases hvalid : settings.isValid = true
  · -- the keys are read in ascending order, so the entries are the arranged records
    have hmap : MapOf IsFrom (keyed (arrange records)) (.ofFields fields) := by
      refine ⟨_, rfl, ?_⟩
      rw [ofList_eq_map_arrange h hperm, keyed, List.forall₂_map_left_iff,
        List.forall₂_map_right_iff, List.forall₂_same]
      exact fun r _ => ⟨rfl, isFrom_encode r⟩
    rw [ofJson_of_mapOf ⟨hdocument, ScanSettings.isValid_iff.1 hvalid⟩ hmap]
    exact ofEntries_eq_ofRecords settings h ((perm_arrange records).map _)
  · rw [ofJson_of_invalid hvalid hdocument, ofRecords_of_invalid hvalid]

/-- Encoded records can be written in a list. -/
theorem exists_document_list (records : List TypeRecord) :
    ∃ text, Json.Document (.list (records.map (·.encode))) text :=
  ⟨_, Json.document_write (.listOf records (numberless_encode 117))⟩

/-- Encoded records can be written under their names. -/
theorem exists_document_fields {fields : List (String × Data)}
    (hperm : fields.Perm (records.map fun r => (r.name, r.encode))) :
    ∃ text, Json.Document (.ofFields fields) text := by
  refine ⟨_, Json.document_write (.ofFields fun field hfield => ?_)⟩
  obtain ⟨r, -, rfl⟩ := List.mem_map.1 (hperm.mem_iff.1 hfield)
  exact r.numberless_encode 117

/-! ## All arrivals -/

/-- **How records arrive does not matter.** A permutation of a list is built into the same
graph or refused with the same error; so are the documents that hold the list, and, if the
names are distinct, the map of the records under their names and the documents that hold
the map. Both kinds of documents exist. -/
theorem ofRecords_eq_of_arrival (settings : ScanSettings) (records : List TypeRecord) :
    (∀ others, others.Perm records → ofRecords settings others = ofRecords settings records)
      ∧ (∃ text, Json.Document (.list (records.map (·.encode))) text)
      ∧ (∀ text, Json.Document (.list (records.map (·.encode))) text →
        ofJson settings text = ofRecords settings records)
      ∧ ((records.Pairwise fun a b => a.name ≠ b.name) →
        (∀ entries, entries.Perm (keyed records) →
          ofEntries settings entries = ofRecords settings records)
        ∧ ∀ fields, fields.Perm (records.map fun r => (r.name, r.encode)) →
          (∃ text, Json.Document (.ofFields fields) text)
          ∧ ∀ text, Json.Document (.ofFields fields) text →
            ofJson settings text = ofRecords settings records) := by
  refine ⟨fun others hperm => ofRecords_eq_of_perm settings hperm, exists_document_list records,
    fun text hdocument => ofJson_eq_ofRecords settings records hdocument, fun hdistinct => ?_⟩
  refine ⟨fun entries hperm => ofEntries_eq_ofRecords settings hdistinct hperm,
    fun fields hperm => ⟨exists_document_fields hperm, fun text hdocument => ?_⟩⟩
  exact ofJson_fields_eq_ofRecords settings hdistinct hperm hdocument

/-- A fox, a den it names, and a tag. -/
def den : List TypeRecord :=
  [{ name := "Fox", kind := .standard, tags := [{ name := "Shy" }],
     attributes := [{ name := "home", signature := ⟨"Den"⟩ }] },
   { name := "Den", kind := .standard, origins := ["den.jar"] },
   { name := "Shy", kind := .tag }]

theorem ofRecords_eq_of_arrival_den :
    ∃ g : TypeGraph, ofRecords {} den = .ok g ∧ ofRecords {} den.reverse = .ok g
      ∧ ofEntries {} (keyed den).reverse = .ok g
      ∧ (∃ text, ofJson {} text = .ok g ∧ Json.Document (.list (den.map (·.encode))) text)
      ∧ ∃ text, ofJson {} text = .ok g
        ∧ Json.Document (.ofFields (den.map fun r => (r.name, r.encode)).reverse) text := by
  obtain ⟨g, hg, -, -⟩ := @exists_ofRecords {} den (by decide) (by decide) (by decide)
  obtain ⟨hperm, ⟨list, hlist⟩, hjson, hkeyed⟩ := ofRecords_eq_of_arrival {} den
  obtain ⟨hentries, hfields⟩ := hkeyed (by decide)
  obtain ⟨⟨map, hmap⟩, hmapped⟩ := hfields _ (List.reverse_perm _)
  exact ⟨g, hg, (hperm _ den.reverse_perm).trans hg,
    (hentries _ (List.reverse_perm _)).trans hg, ⟨list, (hjson list hlist).trans hg, hlist⟩,
    map, (hmapped map hmap).trans hg, hmap⟩

/-- **The graph of some records** under settings: whatever order they arrive in, and in a
list or in a map under their names, they are built into it. -/
def IsGraphOf (g : TypeGraph) (settings : ScanSettings) (records : List TypeRecord) : Prop :=
  (∀ others, others.Perm records → ofRecords settings others = .ok g)
    ∧ ∀ entries, entries.Perm (keyed records) → ofEntries settings entries = .ok g

theorem IsGraphOf.ofRecords_eq {g : TypeGraph} (h : g.IsGraphOf settings records) :
    ofRecords settings records = .ok g :=
  h.1 records (.refl records)

/-- Records have no two graphs under the same settings. -/
theorem IsGraphOf.eq {g g' : TypeGraph} (h : g.IsGraphOf settings records)
    (h' : g'.IsGraphOf settings records) : g = g' :=
  Except.ok.inj (h.ofRecords_eq.symm.trans h'.ofRecords_eq)

/-- **Records that are accepted have a graph**, which holds them and no others. -/
theorem exists_isGraphOf (hvalid : settings.isValid = true) (h : Accepted records) :
    ∃ g : TypeGraph, g.IsGraphOf settings records ∧ g.settings = settings
      ∧ ∀ r, r ∈ g.records ↔ r ∈ records := by
  obtain ⟨g, hg, hsettings, hrecords⟩ := exists_ofRecords hvalid h.distinct h.named
  refine ⟨g, ⟨fun others hperm => ?_, fun entries hperm => ?_⟩, hsettings, fun r => ?_⟩
  · rw [ofRecords_eq_of_perm settings hperm, hg]
  · rw [ofEntries_eq_ofRecords settings h.distinct hperm, hg]
  · rw [hrecords, mem_arrange]

end TypeGraph

end TypeAtlas
