import Mathlib.Data.List.Sort
import TypeAtlas.Proofs.Arrival
import TypeAtlas.Proofs.Converse
import TypeAtlas.Proofs.Drawing

/-!
# A diagram shows nothing but what it draws

The nodes of a graph are numbered in the order of all records, hidden ones among them, and
its edges are kept in the order in which they were linked. A diagram might give away some of
this, by its order if by nothing else. It does not: its text depends on the settings and on
the records that are drawn, and two graphs that draw the same records have the same diagram
(`diagram_eq_of_drawnRecords`), however many others they hold.

The reason is that both orders of a diagram can be told from the records. Its nodes ascend
by kind and name, so there is one list of them; its edges are the relations between these
records, as arrows from record to record, and they ascend by carrier, relation and target,
so there is one list of them as well.
-/

namespace TypeAtlas

/-! ## Records and arrows in the order of a diagram -/

/-- Whoever orders items by one thing, and then by a second one where they agree in the
first, never has two items stand before each other. -/
theorem asymm_of_first {α β : Type} {f : α → β} {r : β → β → Prop} {s : α → α → Prop}
    (hr : ∀ x y, r x y → ¬ r y x) (hs : ∀ a b, s a b → ¬ s b a) {a b : α}
    (h : r (f a) (f b) ∨ f a = f b ∧ s a b) :
    ¬ (r (f b) (f a) ∨ f b = f a ∧ s b a) := by
  have hself : ∀ {x y}, x = y → ¬ r x y := fun heq hxy => hr _ _ hxy (heq ▸ heq ▸ hxy)
  rintro (hba | ⟨heq, hba⟩)
  · exact h.elim (fun hab => hr _ _ hab hba) fun hab => hself hab.1.symm hba
  · exact h.elim (hself heq.symm) fun hab => hs a b hab.2 hba

/-- **A record stands before another**: its kind is earlier, or the kinds are the same and
its name is. -/
def TypeRecord.Precedes (a b : TypeRecord) : Prop :=
  a.kind.rank < b.kind.rank ∨ a.kind = b.kind ∧ a.name < b.name

instance : Std.Asymm TypeRecord.Precedes where
  asymm _ _ := asymm_of_first (f := TypeRecord.kind)
    (r := fun k l => k.rank < l.rank) (s := fun a b => a.name < b.name)
    (fun _ _ => Nat.lt_asymm) (fun _ _ => String.lt_asymm)

/-- **An arrow of a diagram**: an edge, told by the records at its ends. -/
structure Arrow where
  /-- The record that declares the relation. -/
  carrier : TypeRecord
  /-- The relation. -/
  relation : RelationKind
  /-- The record that the relation leads to. -/
  target : TypeRecord

namespace Arrow

/-- The statement of an arrow. -/
def statement (a : Arrow) : EdgeStatement :=
  .ofRelation a.carrier.name a.relation a.target.name

/-- **An arrow stands before another**: its carrier does, or the carrier is the same and
its relation is declared earlier, or that is the same too and the name of its target is
earlier. -/
def Precedes (a b : Arrow) : Prop :=
  a.carrier.Precedes b.carrier
    ∨ a.carrier = b.carrier
      ∧ (a.relation.rank < b.relation.rank
        ∨ a.relation = b.relation ∧ a.target.name < b.target.name)

instance : Std.Asymm Arrow.Precedes where
  asymm _ _ := asymm_of_first (f := Arrow.carrier) (r := TypeRecord.Precedes)
    (s := fun a b => a.relation.rank < b.relation.rank
      ∨ a.relation = b.relation ∧ a.target.name < b.target.name)
    Std.Asymm.asymm fun _ _ => asymm_of_first (f := Arrow.relation)
      (r := fun k l => k.rank < l.rank) (s := fun a b => a.target.name < b.target.name)
      (fun _ _ => Nat.lt_asymm) (fun _ _ => String.lt_asymm)

end Arrow

/-- The statement of the node of a record. -/
def NodeStatement.ofRecord (scan : ScanSettings) (diagram : DiagramSettings)
    (r : TypeRecord) : NodeStatement :=
  ⟨r.name, r.kind.style, Label.render scan diagram r.kind.style.heading r⟩

namespace TypeGraph

open TypeRecord

/-! ## What is drawn, in terms of records -/

section Drawn

variable {g : TypeGraph} {visible : List String}

/-- The records in a diagram for some names. -/
def drawnRecords (g : TypeGraph) (visible : List String) : List TypeRecord :=
  (g.drawn visible).map g.record

/-- The edge between two nodes as an arrow between their records. -/
def arrow (g : TypeGraph) (e : Edge g.toPopulation) : Arrow :=
  ⟨g.record e.carrier, e.relation, g.record e.target⟩

/-- The arrows in a diagram for some names. -/
def arrows (g : TypeGraph) (visible : List String) : List Arrow :=
  (g.drawnEdges (g.drawn visible)).map g.arrow

theorem mem_drawnRecords {r : TypeRecord} :
    r ∈ g.drawnRecords visible
      ↔ r ∈ g.records ∧ r.name ∈ visible ∧ r.name ≠ g.settings.rootType := by
  rw [drawnRecords, List.mem_map]
  constructor
  · rintro ⟨i, hi, rfl⟩
    exact ⟨g.record_mem_records i, mem_drawn.1 hi⟩
  · rintro ⟨hr, hnamed⟩
    obtain ⟨i, rfl⟩ := g.mem_records.1 hr
    exact ⟨i, mem_drawn.2 hnamed, rfl⟩

theorem pairwise_drawnRecords (g : TypeGraph) (visible : List String) :
    (g.drawnRecords visible).Pairwise TypeRecord.Precedes :=
  List.pairwise_map.2 (g.pairwise_drawn visible)

/-- **The arrows of a diagram are the relations between the records that are drawn.** -/
theorem mem_arrows {a : Arrow} :
    a ∈ g.arrows visible
      ↔ a.carrier ∈ g.drawnRecords visible ∧ a.target ∈ g.drawnRecords visible
        ∧ a.carrier.Relates a.relation a.target := by
  rw [arrows, drawnRecords, List.mem_map, List.mem_map, List.mem_map]
  constructor
  · rintro ⟨e, he, rfl⟩
    obtain ⟨i, hi, hfrom⟩ := List.mem_flatMap.1 he
    obtain ⟨hedge, rfl, htarget⟩ := mem_drawnFrom.1 hfrom
    exact ⟨⟨e.carrier, hi, rfl⟩, ⟨e.target, htarget, rfl⟩, g.mem_edges.1 hedge⟩
  · obtain ⟨c, k, t⟩ := a
    rintro ⟨⟨i, hi, rfl⟩, ⟨j, hj, rfl⟩, hrelates⟩
    have hedge : (⟨i, k, j⟩ : Edge g.toPopulation) ∈ g.edges := g.mem_edges.2 hrelates
    exact ⟨⟨i, k, j⟩, List.mem_flatMap.2 ⟨i, hi, mem_drawnFrom.2 ⟨hedge, rfl, hj⟩⟩, rfl⟩

theorem pairwise_arrows (g : TypeGraph) (visible : List String) :
    (g.arrows visible).Pairwise Arrow.Precedes := by
  refine List.pairwise_map.2 ((pairwise_drawnEdges (g.pairwise_drawn visible)).imp ?_)
  exact fun h => h.imp_right (And.imp_left (congrArg g.record))

/-- A diagram in terms of records and arrows: nothing else of the graph is in it. -/
theorem diagram_eq (g : TypeGraph) (settings : DiagramSettings) (visible : List String) :
    g.diagram settings visible =
      { width := settings.width
        height := settings.height
        nodes := (g.drawnRecords visible).map (.ofRecord g.settings settings)
        edges := (g.arrows visible).map Arrow.statement } := by
  rw [diagram, drawnRecords, arrows, List.map_map, List.map_map]
  rfl

end Drawn

/-- **Graphs that draw the same records have the same diagram.** -/
theorem diagram_eq_of_drawnRecords {g g' : TypeGraph} {visible visible' : List String}
    (hsettings : g.settings = g'.settings)
    (h : ∀ r, r ∈ g.drawnRecords visible ↔ r ∈ g'.drawnRecords visible')
    (settings : DiagramSettings) : g.diagram settings visible = g'.diagram settings visible' := by
  have hrecords : g.drawnRecords visible = g'.drawnRecords visible' :=
    List.Subset.antisymm_of_pairwise (g.pairwise_drawnRecords visible)
      (g'.pairwise_drawnRecords visible') (fun r => (h r).1) (fun r => (h r).2)
  have hmem : ∀ a, a ∈ g.arrows visible ↔ a ∈ g'.arrows visible' := fun a => by
    rw [mem_arrows, mem_arrows, hrecords]
  have harrows : g.arrows visible = g'.arrows visible' :=
    List.Subset.antisymm_of_pairwise (g.pairwise_arrows visible)
      (g'.pairwise_arrows visible') (fun a => (hmem a).1) (fun a => (hmem a).2)
  rw [diagram_eq, diagram_eq, hsettings, hrecords, harrows]

/-! ## The diagram of the whole graph -/

/-- What is visible by default is what is shown. -/
theorem mem_defaultVisible {g : TypeGraph} {name : String} :
    name ∈ g.defaultVisible ↔ g.Shows name := by
  rw [defaultVisible, NameList.mem_ofList, List.mem_map]
  constructor
  · rintro ⟨i, hi, rfl⟩
    rw [shows_name, Bool.and_comm]
    exact (List.mem_filter.1 hi).2
  · rintro ⟨hroot, r, hr, hexternal⟩
    obtain ⟨hmem, rfl⟩ := g.record?_eq_some_iff.1 hr
    obtain ⟨i, rfl⟩ := g.mem_records.1 hmem
    have hshown := shows_name.1 ⟨hroot, g.record i, hr, hexternal⟩
    exact ⟨i, List.mem_filter.2 ⟨List.mem_finRange i, by rwa [Bool.and_comm]⟩, rfl⟩

/-- **The records drawn by default** are those that are neither the root type nor hidden as
external. -/
theorem mem_drawnRecords_defaultVisible {g : TypeGraph} {r : TypeRecord} :
    r ∈ g.drawnRecords g.defaultVisible
      ↔ r ∈ g.records ∧ r.name ≠ g.settings.rootType
        ∧ (r.isExternal = false ∨ g.settings.enableExternalTypes = true) := by
  rw [mem_drawnRecords, mem_defaultVisible]
  constructor
  · rintro ⟨hr, ⟨hroot, s, hs, hexternal⟩, -⟩
    obtain ⟨hmem, hname⟩ := g.record?_eq_some_iff.1 hs
    exact ⟨hr, hroot, g.eq_of_name_eq hmem hr hname ▸ hexternal⟩
  · rintro ⟨hr, hroot, hexternal⟩
    exact ⟨hr, ⟨hroot, r, g.record?_eq_some_iff.2 ⟨hr, rfl⟩, hexternal⟩, hroot⟩

/-- The diagrams of two populations that agree on the records that are shown are the
same. -/
theorem defaultDiagram_eq_of_agree {g g' : TypeGraph} (hsettings : g.settings = g'.settings)
    (hclosed : g.settings.enableExternalTypes = false)
    (h : ∀ r : TypeRecord, r.isExternal = false → r.name ≠ g.settings.rootType →
      (r ∈ g.records ↔ r ∈ g'.records)) (diagram : DiagramSettings) :
    g.defaultDiagram diagram = g'.defaultDiagram diagram := by
  refine diagram_eq_of_drawnRecords hsettings (fun r => ?_) diagram
  rw [mem_drawnRecords_defaultVisible, mem_drawnRecords_defaultVisible, ← hsettings, hclosed]
  simp only [Bool.false_eq_true, or_false]
  exact and_congr_left fun ⟨hroot, hexternal⟩ => h r hexternal hroot

/-- **Hidden types leave no trace in the diagram.** Without external types, the diagram of
some records is, character for character, that of the records without the external ones and
the root type, and also that of any other records which are the same but for those. -/
theorem defaultDiagram_text_eq_of_hidden {settings : ScanSettings} {records : List TypeRecord}
    (hvalid : settings.isValid = true) (hclosed : settings.enableExternalTypes = false)
    (h : Accepted records) :
    ∃ g : TypeGraph, g.IsGraphOf settings records
      ∧ (∃ g' : TypeGraph, g'.IsGraphOf settings
          (records.filter fun r => !r.isExternal && r.name ≠ settings.rootType)
        ∧ ∀ diagram, (g.defaultDiagram diagram).text = (g'.defaultDiagram diagram).text)
      ∧ ∀ others, Accepted others →
        (∀ r : TypeRecord, r.isExternal = false → r.name ≠ settings.rootType →
          (r ∈ records ↔ r ∈ others)) →
        ∃ g' : TypeGraph, g'.IsGraphOf settings others
          ∧ ∀ diagram, (g.defaultDiagram diagram).text = (g'.defaultDiagram diagram).text := by
  obtain ⟨g, hgraph, rfl, hg⟩ := exists_isGraphOf hvalid h
  have hagree : ∀ others, Accepted others →
      (∀ r : TypeRecord, r.isExternal = false → r.name ≠ g.settings.rootType →
        (r ∈ records ↔ r ∈ others)) →
      ∃ g' : TypeGraph, g'.IsGraphOf g.settings others
        ∧ ∀ diagram, (g.defaultDiagram diagram).text = (g'.defaultDiagram diagram).text := by
    intro others hothers hsame
    obtain ⟨g', hgraph', hsettings, hg'⟩ := exists_isGraphOf hvalid hothers
    refine ⟨g', hgraph', fun diagram => congrArg Document.text ?_⟩
    refine defaultDiagram_eq_of_agree hsettings.symm hclosed (fun r hexternal hroot => ?_) diagram
    rw [hg, hg', hsame r hexternal hroot]
  refine ⟨g, hgraph, hagree _ ⟨?_, ?_⟩ fun r hexternal hroot => ?_, hagree⟩
  · exact h.distinct.filter _
  · exact fun r hr => h.named r (List.mem_filter.1 hr).1
  · simp [hexternal, hroot]

/-- The hawks of `aviary` extend a class that is external; in the diagram they extend
none. -/
theorem defaultDiagram_text_eq_of_hidden_aviary :
    ∃ g g' : TypeGraph, ofRecords {} aviary = .ok g
      ∧ ofRecords {} [aviary[0], aviary[2], aviary[3], aviary[5]] = .ok g'
      ∧ (g.defaultDiagram {}).text = (g'.defaultDiagram {}).text := by
  obtain ⟨g, hgraph, ⟨g', hgraph', htext⟩, -⟩ :=
    @defaultDiagram_text_eq_of_hidden {} aviary (by decide) (by decide) (by decide)
  exact ⟨g, g', hgraph.ofRecords_eq, hgraph'.ofRecords_eq, htext {}⟩

end TypeGraph

end TypeAtlas
