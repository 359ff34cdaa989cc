import TypeAtlas.Proofs.Listing
import TypeAtlas.Proofs.Redraw
import TypeAtlas.Proofs.Storage

/-!
# Views of what is shown

What a graph shows can be asked for in several ways: as the names of all types, as the names of
the types of a kind, as the records that the settings expose, and as the diagram of the whole
graph. Each of them leaves out hidden types and the root type by a test of its own, and only the
listings by kind look at the kind. They agree nonetheless (`viewsAgree`): the names of all types are
those of the exposed records but for the root type, and they are what the listings by kind are
merged to, each name coming from one of them; and the diagram of the whole graph is drawn from
the listings by kind as well as from the names of all types, since its nodes are put in order
by itself.
-/

namespace TypeAtlas.TypeGraph

variable {g : TypeGraph}

/-! ## Listings by kind -/

/-- A name is listed exactly if it is shown. -/
theorem mem_allNames {name : String} : name ∈ g.allNames ↔ g.Shows name :=
  (mem_names (l := .all)).trans ⟨And.left, fun h => ⟨h, h.2.imp fun _ hr => hr.1⟩⟩

/-- **Whatever is listed is listed by its kind.** -/
theorem mem_allNames_iff_exists_kind {name : String} :
    name ∈ g.allNames ↔ ∃ k, name ∈ g.namesOfKind k := by
  rw [mem_allNames]
  constructor
  · rintro ⟨hroot, r, hr, hexternal⟩
    exact ⟨r.kind, (mem_names (l := .ofKind r.kind)).2 ⟨⟨hroot, r, hr, hexternal⟩, r, hr, rfl⟩⟩
  · rintro ⟨k, hk⟩
    exact ((mem_names (l := .ofKind k)).1 hk).1

/-- **No name is listed by two kinds.** -/
theorem disjoint_namesOfKind (g : TypeGraph) {k l : TypeKind} (h : k ≠ l) :
    (g.namesOfKind k).Disjoint (g.namesOfKind l) := by
  intro name hk hl
  obtain ⟨-, r, hr, rfl⟩ := (mem_names (l := .ofKind k)).1 hk
  obtain ⟨-, s, hs, rfl⟩ := (mem_names (l := .ofKind l)).1 hl
  obtain rfl : r = s := Option.some.inj (hr.symm.trans hs)
  exact h rfl

/-- **The listings by kind have all names between them**, each once. -/
theorem perm_flatMap_namesOfKind (g : TypeGraph) :
    (TypeKind.all.flatMap g.namesOfKind).Perm g.allNames := by
  have hnodup : ∀ l, (g.names l).Nodup := fun l =>
    (g.pairwise_names l).imp String.ne_of_lt
  have hkinds : (TypeKind.all.flatMap g.namesOfKind).Nodup := by
    refine List.nodup_flatMap.2 ⟨fun k _ => hnodup (.ofKind k), ?_⟩
    have hdistinct : TypeKind.all.Pairwise (· ≠ ·) := by decide
    exact hdistinct.imp g.disjoint_namesOfKind
  refine (List.perm_ext_iff_of_nodup hkinds (hnodup .all)).2 fun name => ?_
  rw [List.mem_flatMap, names, mem_allNames_iff_exists_kind]
  simp only [TypeKind.mem_all, true_and]

/-- Two lists of names in order are merged to one. -/
theorem pairwise_merge {xs ys : List String} (hxs : xs.Pairwise (· ≤ ·))
    (hys : ys.Pairwise (· ≤ ·)) : (xs.merge ys).Pairwise (· ≤ ·) := by
  have htrans : ∀ a b c : String, decide (a ≤ b) = true → decide (b ≤ c) = true →
      decide (a ≤ c) = true := by
    simpa only [decide_eq_true_eq] using fun _ _ _ => String.le_trans
  have htotal : ∀ a b : String, (decide (a ≤ b) || decide (b ≤ a)) = true := by
    simpa only [Bool.or_eq_true, decide_eq_true_eq] using String.le_total
  simpa using List.pairwise_merge htrans htotal xs ys (by simpa using hxs) (by simpa using hys)

/-- **The names of all types are the listings by kind, merged.** -/
theorem allNames_eq_merge (g : TypeGraph) :
    g.allNames = ((g.namesOfKind .standard).merge (g.namesOfKind .interface)).merge
      (g.namesOfKind .tag) := by
  have hsorted : ∀ l, (g.names l).Pairwise (· ≤ ·) := fun l =>
    (g.pairwise_names l).imp fun h => String.not_lt.1 (String.lt_asymm h)
  have hmerge : (((g.namesOfKind .standard).merge (g.namesOfKind .interface)).merge
      (g.namesOfKind .tag)).Perm (TypeKind.all.flatMap g.namesOfKind) := by
    have hfirst := (@List.merge_perm_append _ (fun a b => decide (a ≤ b))
      (g.namesOfKind .standard) (g.namesOfKind .interface)).append_right (g.namesOfKind .tag)
    simpa [TypeKind.all] using (List.merge_perm_append _).trans hfirst
  have hmerged := pairwise_merge (pairwise_merge (hsorted (.ofKind .standard))
    (hsorted (.ofKind .interface))) (hsorted (.ofKind .tag))
  exact (g.perm_flatMap_namesOfKind.symm.trans hmerge.symm).eq_of_pairwise
    (fun _ _ _ _ => String.le_antisymm) (hsorted .all) hmerged

/-! ## Records and diagrams -/

/-- **The names of all types are those of the exposed records**, but for the root type. -/
theorem allNames_eq_filter_exposedRecords (g : TypeGraph) :
    g.allNames = (g.exposedRecords.map (·.name)).filter (· ≠ g.settings.rootType) := by
  have hascending : (g.exposedRecords.map (·.name)).Pairwise (· < ·) := by
    rw [exposedRecords, allRecords_eq_filter]
    exact List.pairwise_map.2 (g.ascending.filter _)
  refine (g.pairwise_names .all).eq_of_mem_iff (hascending.filter _) fun name => ?_
  rw [names, mem_allNames, List.mem_filter, List.mem_map, exposedRecords, allRecords_eq_filter]
  constructor
  · rintro ⟨hroot, r, hr, hexternal⟩
    obtain ⟨hmem, rfl⟩ := g.record?_eq_some_iff.1 hr
    exact ⟨⟨r, List.mem_filter.2 ⟨hmem, by simpa [or_comm] using hexternal⟩, rfl⟩,
      decide_eq_true hroot⟩
  · rintro ⟨⟨r, hr, rfl⟩, hroot⟩
    obtain ⟨hmem, hexternal⟩ := List.mem_filter.1 hr
    exact ⟨of_decide_eq_true hroot, r, g.record?_eq_some_iff.2 ⟨hmem, rfl⟩,
      by simpa [or_comm] using hexternal⟩

/-- **A diagram is told by which names are to be visible**, whatever their order. -/
theorem diagram_congr {visible others : List String} (h : ∀ name, name ∈ visible ↔ name ∈ others)
    (settings : DiagramSettings) : g.diagram settings visible = g.diagram settings others :=
  diagram_eq_of_drawnRecords rfl (fun r => by rw [mem_drawnRecords, mem_drawnRecords, h]) settings

/-- **The views of what a graph shows agree.** -/
structure ViewsAgree (g : TypeGraph) : Prop where
  /-- The names of all types are strictly ascending. -/
  pairwise_allNames : g.allNames.Pairwise (· < ·)
  /-- They are those of the exposed records in their order, but for the root type. -/
  allNames_eq_filter :
    g.allNames = (g.exposedRecords.map (·.name)).filter (· ≠ g.settings.rootType)
  /-- They are the names of the types that are drawn when none are chosen. -/
  allNames_eq_defaultVisible : g.allNames = g.defaultVisible
  /-- The listings by kind are merged to them, in order. -/
  allNames_eq_merge : g.allNames =
    ((g.namesOfKind .standard).merge (g.namesOfKind .interface)).merge (g.namesOfKind .tag)
  /-- No name is listed by two kinds. -/
  disjoint_namesOfKind : ∀ k l, k ≠ l → (g.namesOfKind k).Disjoint (g.namesOfKind l)
  /-- The diagram of the whole graph is the diagram of the names listed by kind, in any order. -/
  defaultDiagram_eq : ∀ settings (visible : List String),
    visible.Perm (g.namesOfKind .standard ++ g.namesOfKind .interface ++ g.namesOfKind .tag) →
      g.defaultDiagram settings = g.diagram settings visible

/-- **The views of what a graph shows agree**, under all settings and for all records. -/
theorem viewsAgree (g : TypeGraph) : g.ViewsAgree where
  pairwise_allNames := g.pairwise_names .all
  allNames_eq_filter := g.allNames_eq_filter_exposedRecords
  allNames_eq_defaultVisible :=
    (g.pairwise_names .all).eq_of_mem_iff (NameList.pairwise_ofList _) fun _ =>
      mem_allNames.trans mem_defaultVisible.symm
  allNames_eq_merge := g.allNames_eq_merge
  disjoint_namesOfKind _ _ := g.disjoint_namesOfKind
  defaultDiagram_eq settings visible hvisible := by
    have hperm : visible.Perm g.allNames :=
      hvisible.trans (by simpa [TypeKind.all] using g.perm_flatMap_namesOfKind)
    refine diagram_congr (fun name => ?_) settings
    rw [mem_defaultVisible, ← mem_allNames, hperm.mem_iff]

end TypeAtlas.TypeGraph
