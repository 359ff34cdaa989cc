import Mathlib.Data.List.Sort
import TypeAtlas.Proofs.Arrival
import TypeAtlas.Proofs.Converse
import TypeAtlas.Proofs.Listing

/-!
# Settings filter and do not reroute

Settings hide the root type and, unless they enable them, external types. They do so in
the listings alone. What qualifies for a listing is a matter of the records, so under
other settings the same names qualify, by the same paths, and the listings differ by what
is hidden from each (`filter_names_eq`).

So a listing without external types is the one with them, less those, and not the listing
of a smaller graph: a class stays listed above another one where the only way from the one
to the other is through an external class.
-/

namespace TypeAtlas

/-- Whether a name is that of an external record. -/
def TypeRecord.namesExternal (records : List TypeRecord) (name : String) : Bool :=
  records.any fun r => r.name = name && r.isExternal

namespace ScanSettings

/-- **Whether settings hide a name**: they hide that of the root type and, unless external
types are enabled, those of external records. -/
def hides (s : ScanSettings) (records : List TypeRecord) (name : String) : Bool :=
  name = s.rootType || !s.enableExternalTypes && TypeRecord.namesExternal records name

/-- The names in a list that settings do not hide. -/
def exposed (s : ScanSettings) (records : List TypeRecord) (names : List String) :
    List String :=
  names.filter fun name => !s.hides records name

end ScanSettings

namespace TypeGraph

open TypeRecord

/-! ## What is shown -/

section Shown

variable {g : TypeGraph} {records : List TypeRecord} (hg : ∀ r, r ∈ g.records ↔ r ∈ records)

include hg

/-- The name of a record is external exactly if the record is. -/
theorem namesExternal_name {r : TypeRecord} (hr : r ∈ g.records) :
    namesExternal records r.name = r.isExternal := by
  rw [Bool.eq_iff_iff, namesExternal, List.any_eq_true]
  constructor
  · rintro ⟨s, hs, htest⟩
    obtain ⟨hname, hexternal⟩ := Bool.and_eq_true_iff.1 htest
    exact g.eq_of_name_eq ((hg s).2 hs) hr (of_decide_eq_true hname) ▸ hexternal
  · exact fun hexternal => ⟨r, (hg r).1 hr, by simp [hexternal]⟩

/-- **Shown are the names of records that the settings do not hide.** -/
theorem shows_iff_hides {m : String} :
    g.Shows m ↔ (∃ r, g.record? m = some r) ∧ g.settings.hides records m = false := by
  have hhides : ∀ {r}, g.record? m = some r → (g.settings.hides records m = false
      ↔ m ≠ g.settings.rootType
        ∧ (r.isExternal = false ∨ g.settings.enableExternalTypes = true)) := by
    intro r hr
    obtain ⟨hmem, rfl⟩ := g.record?_eq_some_iff.1 hr
    rw [ScanSettings.hides, namesExternal_name hg hmem]
    cases r.isExternal <;> cases g.settings.enableExternalTypes <;> simp
  constructor
  · rintro ⟨hroot, r, hr, hexternal⟩
    exact ⟨⟨r, hr⟩, (hhides hr).2 ⟨hroot, hexternal⟩⟩
  · rintro ⟨⟨r, hr⟩, h⟩
    obtain ⟨hroot, hexternal⟩ := (hhides hr).1 h
    exact ⟨hroot, r, hr, hexternal⟩

end Shown

/-! ## Two settings -/

section TwoSettings

variable {g g' : TypeGraph} {records : List TypeRecord} {p q : String → Bool}

/-- Names that pass a test and are not hidden are listed under other settings as well, if
these hide none of them. -/
theorem filter_names_subset (hg : ∀ r, r ∈ g.records ↔ r ∈ records)
    (hg' : ∀ r, r ∈ g'.records ↔ r ∈ records)
    (h : ∀ m, g.settings.hides records m = false → p m = true →
      g'.settings.hides records m = false ∧ q m = true) (l : Listing) :
    (g.names l).filter p ⊆ (g'.names l).filter q := by
  intro m hm
  obtain ⟨hlisted, hpass⟩ := List.mem_filter.1 hm
  obtain ⟨hshows, hqualifies⟩ := mem_names.1 hlisted
  obtain ⟨⟨r, hr⟩, hhides⟩ := (shows_iff_hides hg).1 hshows
  obtain ⟨hhides', hpass'⟩ := h m hhides hpass
  have hsub : ∀ r ∈ g.records, r ∈ g'.records := fun r hr => (hg' r).2 ((hg r).1 hr)
  refine List.mem_filter.2 ⟨mem_names.2 ⟨?_, hqualifies.mono hsub⟩, hpass'⟩
  exact (shows_iff_hides hg').2 ⟨⟨r, record?_mono hsub hr⟩, hhides'⟩

/-- **Under two settings, listings differ by what is hidden.** -/
theorem filter_names_eq (hg : ∀ r, r ∈ g.records ↔ r ∈ records)
    (hg' : ∀ r, r ∈ g'.records ↔ r ∈ records)
    (h : ∀ m, g.settings.hides records m = false ∧ p m = true
      ↔ g'.settings.hides records m = false ∧ q m = true) (l : Listing) :
    (g.names l).filter p = (g'.names l).filter q :=
  List.Subset.antisymm_of_pairwise ((pairwise_names g l).filter p)
    ((pairwise_names g' l).filter q)
    (filter_names_subset hg hg' (fun m hhides hpass => (h m).1 ⟨hhides, hpass⟩) l)
    (filter_names_subset hg' hg (fun m hhides hpass => (h m).2 ⟨hhides, hpass⟩) l)

end TwoSettings

/-- **Settings filter listings and do not reroute them.** Under two settings, the graphs of
some records have the same listings but for the names that one of the settings hides. So
without external types a listing is what it is with them, less the external types, and
settings that hide the same have the same listings, whichever attributes and routines they
say were scanned. -/
theorem exposed_names_eq_of_settings {c d : ScanSettings} {records : List TypeRecord}
    (hc : c.isValid = true) (hd : d.isValid = true) (h : Accepted records) :
    ∃ g g' : TypeGraph, g.IsGraphOf c records ∧ g'.IsGraphOf d records
      ∧ (∀ l, d.exposed records (g.names l) = c.exposed records (g'.names l))
      ∧ (c.rootType = d.rootType → c.enableExternalTypes = false →
        d.enableExternalTypes = true → ∀ l, g.names l
          = (g'.names l).filter fun name => !namesExternal records name)
      ∧ (c.rootType = d.rootType → c.enableExternalTypes = d.enableExternalTypes →
        ∀ l, g.names l = g'.names l) := by
  obtain ⟨g, hgraph, rfl, hg⟩ := exists_isGraphOf hc h
  obtain ⟨g', hgraph', rfl, hg'⟩ := exists_isGraphOf hd h
  refine ⟨g, g', hgraph, hgraph', fun l => ?_, fun hroot hclosed hopen l => ?_,
    fun hroot hsame l => ?_⟩
  · refine filter_names_eq hg hg' (fun m => ?_) l
    rw [Bool.not_eq_true', Bool.not_eq_true', and_comm]
  · rw [← List.filter_true (g.names l)]
    refine filter_names_eq hg hg' (fun m => ?_) l
    simp [ScanSettings.hides, hroot, hclosed, hopen]
  · rw [← List.filter_true (g.names l), ← List.filter_true (g'.names l)]
    refine filter_names_eq hg hg' (fun m => ?_) l
    rw [ScanSettings.hides, ScanSettings.hides, hroot, hsame]

/-- The raptors of `aviary` are external, and birds are above hawks by them only. -/
theorem exposed_names_eq_of_settings_aviary :
    ∃ g g' : TypeGraph, ofRecords {} aviary = .ok g
      ∧ ofRecords .withExternalTypes aviary = .ok g'
      ∧ "Raptor" ∈ g'.names (.answer .superclasses "Hawk")
      ∧ "Raptor" ∉ g.names (.answer .superclasses "Hawk")
      ∧ "Bird" ∈ g.names (.answer .superclasses "Hawk")
      ∧ ScanSettings.withExternalTypes.exposed aviary (g.names .all)
        = ScanSettings.exposed {} aviary (g'.names .all) := by
  obtain ⟨g, g', hgraph, hgraph', hall, hless, -⟩ :=
    @exposed_names_eq_of_settings {} .withExternalTypes aviary (by decide) (by decide) (by decide)
  obtain ⟨open', hopen, hsettings, hmem⟩ :=
    @exists_isGraphOf .withExternalTypes aviary (by decide) (by decide)
  obtain rfl : g' = open' := hgraph'.eq hopen
  have hrecord : ∀ r ∈ aviary, r ∈ g'.records := fun r => (hmem r).2
  have hstep : g'.Leads .extendsClass .outgoing "Hawk" "Raptor" :=
    (hasEdge_iff (hrecord aviary[0] (by decide)) (hrecord aviary[1] (by decide))).2 (by decide)
  have hnext : g'.Leads .extendsClass .outgoing "Raptor" "Bird" :=
    (hasEdge_iff (hrecord aviary[1] (by decide)) (hrecord aviary[2] (by decide))).2 (by decide)
  have hshows : ∀ r ∈ aviary, r.name ≠ "java.lang.Object" → g'.Shows r.name := fun r hr hname =>
    ⟨by rwa [hsettings], r, g'.record?_eq_some_iff.2 ⟨hrecord r hr, rfl⟩,
      .inr (by rw [hsettings]; rfl)⟩
  have hraptor : "Raptor" ∈ g'.names (.answer .superclasses "Hawk") :=
    mem_names.2 ⟨hshows aviary[1] (by decide) (by decide), by decide, .single hstep⟩
  have hbird : "Bird" ∈ g'.names (.answer .superclasses "Hawk") :=
    mem_names.2 ⟨hshows aviary[2] (by decide) (by decide), by decide, .tail (.single hstep) hnext⟩
  refine ⟨g, g', hgraph.ofRecords_eq, hgraph'.ofRecords_eq, hraptor, ?_, ?_, hall .all⟩
  · rw [hless rfl rfl rfl, List.mem_filter]
    exact fun hlisted => absurd hlisted.2 (by decide)
  · rw [hless rfl rfl rfl, List.mem_filter]
    exact ⟨hbird, by decide⟩

end TypeGraph

end TypeAtlas
