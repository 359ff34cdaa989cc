import Mathlib.Data.List.Sort
import TypeAtlas.Proofs.Arrival
import TypeAtlas.Proofs.Converse
import TypeAtlas.Proofs.Listing

/-!
# More records

A scan that finds more does not unsay what an earlier one said. Records keep their edges
to each other when records are added, and get no further ones, since an edge is a matter
of the two records at its ends (`hasEdge_iff`). Whatever was listed is listed still.

The listings may well grow, and not only by the names of the added records. Where a record
is added that others referred to in vain, there are new paths through it, also between
records that were there before.
-/

namespace TypeAtlas.TypeGraph

open TypeRecord

variable {g g' : TypeGraph}

section MoreRecords

variable (hsettings : g.settings = g'.settings) (hsub : ∀ r ∈ g.records, r ∈ g'.records)

include hsettings hsub

/-- A name that is shown is still shown when there are more records. -/
theorem Shows.mono {m : String} (h : g.Shows m) : g'.Shows m := by
  obtain ⟨hroot, r, hr, hexternal⟩ := h
  exact ⟨hsettings ▸ hroot, r, record?_mono hsub hr, hsettings ▸ hexternal⟩

/-- **A listing keeps its names, in their order, when there are more records.** -/
theorem sublist_names (l : Listing) : (g.names l).Sublist (g'.names l) := by
  have hsubset : g.names l ⊆ g'.names l := fun m hm => by
    obtain ⟨hshows, hqualifies⟩ := mem_names.1 hm
    exact mem_names.2 ⟨hshows.mono hsettings hsub, hqualifies.mono hsub⟩
  exact List.sublist_of_subperm_of_pairwise
    (List.subperm_of_subset (pairwise_names g l).nodup hsubset)
    (pairwise_names g l) (pairwise_names g' l)

end MoreRecords

/-- **More records do not change what was known.** The graph of some records is a part of
the graph of more records, with all the edges that there are between them in it, and each
of its listings is a part of the same listing there. -/
theorem names_sublist_of_subset {settings : ScanSettings} {records others : List TypeRecord}
    (hvalid : settings.isValid = true) (h : Accepted records) (hothers : Accepted others)
    (hsub : ∀ r ∈ records, r ∈ others) :
    ∃ g g' : TypeGraph, g.IsGraphOf settings records ∧ g'.IsGraphOf settings others
      ∧ (∀ a ∈ records, g.record? a.name = some a ∧ g'.record? a.name = some a)
      ∧ (∀ a ∈ records, ∀ b ∈ records, ∀ k,
        g.HasEdge a.name k b.name ↔ g'.HasEdge a.name k b.name)
      ∧ ∀ l, (g.names l).Sublist (g'.names l) := by
  obtain ⟨g, hgraph, hsettings, hg⟩ := exists_isGraphOf hvalid h
  obtain ⟨g', hgraph', hsettings', hg'⟩ := exists_isGraphOf hvalid hothers
  have hmem : ∀ r ∈ records, r ∈ g.records := fun r => (hg r).2
  have hmem' : ∀ r ∈ records, r ∈ g'.records := fun r hr => (hg' r).2 (hsub r hr)
  refine ⟨g, g', hgraph, hgraph', fun a ha => ?_, fun a ha b hb k => ?_, ?_⟩
  · exact ⟨g.record?_eq_some_iff.2 ⟨hmem a ha, rfl⟩, g'.record?_eq_some_iff.2 ⟨hmem' a ha, rfl⟩⟩
  · rw [hasEdge_iff (hmem a ha) (hmem b hb), hasEdge_iff (hmem' a ha) (hmem' b hb)]
  · exact sublist_names (hsettings.trans hsettings'.symm) fun r hr => hmem' r ((hg r).1 hr)

/-- The two classes of `aviary` that are not external, without the one between them. -/
def perch : List TypeRecord := [aviary[0], aviary[2]]

/-- In `perch` there is no way from hawks up to birds, and in `aviary` there is one. -/
theorem names_sublist_of_subset_aviary :
    ∃ g g' : TypeGraph, ofRecords {} perch = .ok g ∧ ofRecords {} aviary = .ok g'
      ∧ g.HasEdge "Bird" .extendsClass "Hawk" ∧ g'.HasEdge "Bird" .extendsClass "Hawk"
      ∧ "Bird" ∈ g.names (.answer .subclasses "Hawk")
      ∧ "Bird" ∈ g'.names (.answer .subclasses "Hawk")
      ∧ "Bird" ∉ g.names (.answer .superclasses "Hawk")
      ∧ (g.names (.answer .superclasses "Hawk")).Sublist
        (g'.names (.answer .superclasses "Hawk")) := by
  obtain ⟨g, g', hgraph, hgraph', hrecord, hedges, hnames⟩ :=
    @names_sublist_of_subset {} perch aviary (by decide) (by decide) (by decide) (by decide)
  obtain ⟨small, hsmall, hsettings, hmem⟩ := @exists_isGraphOf {} perch (by decide) (by decide)
  obtain rfl : g = small := hgraph.eq hsmall
  have hhawk : aviary[0] ∈ g.records := (hmem _).2 (by decide)
  have hbird : aviary[2] ∈ g.records := (hmem _).2 (by decide)
  have hup : g.HasEdge "Bird" .extendsClass "Hawk" := (hasEdge_iff hbird hhawk).2 (by decide)
  have hup' : g'.HasEdge "Bird" .extendsClass "Hawk" :=
    (hedges aviary[2] (by decide) aviary[0] (by decide) .extendsClass).1 hup
  have hshows : g.Shows "Bird" :=
    ⟨by rw [hsettings]; decide, aviary[2], (hrecord aviary[2] (by decide)).1, .inl rfl⟩
  have hlisted : "Bird" ∈ g.names (.answer .subclasses "Hawk") :=
    mem_names.2 ⟨hshows, by decide, .single hup⟩
  refine ⟨g, g', hgraph.ofRecords_eq, hgraph'.ofRecords_eq, hup, hup', hlisted,
    (hnames _).subset hlisted, fun habove => ?_, hnames _⟩
  -- a way up from hawks begins with an edge to a record, and they extend none in `perch`
  obtain ⟨-, -, hpath⟩ := mem_names.1 habove
  obtain ⟨b, hstep, -⟩ := Relation.TransGen.head'_iff.1 hpath
  obtain ⟨-, s, -, hfound, -⟩ := HasEdge.exists_records hstep
  obtain ⟨hs, rfl⟩ := g.record?_eq_some_iff.1 hfound
  have hnone : ∀ s ∈ perch, ¬ aviary[0].Relates .extendsClass s := by decide
  exact hnone s ((hmem s).1 hs) ((hasEdge_iff hhawk hs).1 hstep)

end TypeAtlas.TypeGraph
