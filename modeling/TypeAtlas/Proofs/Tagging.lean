import Mathlib.Data.List.Sort
import TypeAtlas.Proofs.Closure

/-!
# What the questions about tags are answered with

Tags sit on types of every kind. On a class or an interface they are its tags, on a tag
they are its meta-tags, and the two are edges of different relations. A tag reaches as
far as the tags on it do: what carries the tag carries its meta-tags as well, in any
number of steps. So the first step from a type goes along the one relation or the other,
and all further steps go from tag to tag (`Carries`).

From a tag only the one relation leaves, and the tags on it are its meta-tags; the two
questions about them are answered alike (`tagsOn_of_tag`), though the one walks from the
tag and the other from the tags on it.
-/

namespace TypeAtlas.TypeGraph

variable {g : TypeGraph}

/-- **A tag reaches a type** by a first step of some relation and then along the tags on
tags, in any number of steps. -/
def Carries (g : TypeGraph) (first : RelationKind) (x t : String) : Prop :=
  ∃ u, g.HasEdge x first u ∧ Relation.ReflTransGen (g.Leads .metaTaggedBy .outgoing) u t

/-- What is carried has a node. -/
theorem Carries.exists_node {k : RelationKind} {x t : String} (h : g.Carries k x t) :
    ∃ j : g.Node, g.name j = t := by
  obtain ⟨u, ⟨e, -, -, -, rfl⟩, hpath⟩ := h
  obtain ⟨j, hname, -⟩ := exists_node_of_path hpath
  exact ⟨j, hname⟩

/-- What carries something has a node. -/
theorem Carries.exists_carrier {k : RelationKind} {x t : String} (h : g.Carries k x t) :
    ∃ i : g.Node, g.name i = x := by
  obtain ⟨u, ⟨e, -, hname, -, -⟩, -⟩ := h
  exact ⟨e.carrier, hname⟩

/-- Only types that are no tags carry tags by the first relation. -/
theorem Carries.kind_ne_tag {x t : String} (h : g.Carries .taggedBy x t) :
    ∃ r, g.record? x = some r ∧ r.kind ≠ .tag := by
  obtain ⟨u, hedge, -⟩ := h
  obtain ⟨r, s, hr, -, hfits⟩ := hedge.exists_records
  exact ⟨r, hr, (by simpa [RelationKind.fits] using hfits : _ ∧ _).1⟩

/-- Along the tags on tags, to carry is to be led to by a path that is not empty. -/
theorem carries_metaTaggedBy_iff {x t : String} :
    g.Carries .metaTaggedBy x t
      ↔ Relation.TransGen (g.Leads .metaTaggedBy .outgoing) x t := by
  rw [Relation.TransGen.head'_iff]
  rfl

/-! ## The types that carry a tag -/

/-- **The types that carry a tag are the shown names from which it is reached.** -/
theorem mem_withTag {n x : String} :
    n ∈ g.withTag x ↔ g.Shows n ∧ g.Carries .taggedBy n x := by
  unfold withTag
  split
  · next hnone =>
    constructor
    · exact fun h => absurd h List.not_mem_nil
    · rintro ⟨-, hcarries⟩
      obtain ⟨j, hname⟩ := hcarries.exists_node
      exact absurd hname (g.node?_eq_none_iff.1 hnone j)
  · next start hsome =>
    obtain rfl : g.name start = x := g.node?_eq_some_iff.1 hsome
    rw [mem_collectNames]
    refine and_congr_right fun _ => ⟨?_, fun hcarries => ?_⟩
    · rintro ⟨j, hj, rfl⟩
      obtain ⟨u, hu, hju⟩ := List.mem_flatMap.1 (List.mem_filter.1 hj).1
      obtain ⟨i, hi, hpath⟩ := mem_reach.1 hu
      obtain rfl := List.mem_singleton.1 hi
      exact ⟨g.name u, leads_of_mem_neighbours hju, path_incoming_iff.1 hpath⟩
    · -- the filter by kind takes nothing out: no tag carries a tag by this relation
      obtain ⟨r, hr, hkind⟩ := hcarries.kind_ne_tag
      obtain ⟨u, hedge, hpath⟩ := hcarries
      obtain ⟨i, j, rfl, rfl, hji⟩ :=
        Leads.exists_nodes (k := .taggedBy) (d := .incoming) hedge
      refine ⟨j, List.mem_filter.2 ⟨List.mem_flatMap.2 ⟨i, ?_, hji⟩, ?_⟩, rfl⟩
      · exact mem_reach.2 ⟨start, List.mem_singleton_self start, path_incoming_iff.2 hpath⟩
      · have hrecord : g.record j = r := g.eq_of_name_eq (g.record_mem_records j)
          (g.record?_eq_some_iff.1 hr).1 (g.record?_eq_some_iff.1 hr).2.symm
        exact decide_eq_true (hrecord ▸ hkind)

theorem pairwise_withTag (g : TypeGraph) (x : String) :
    (g.withTag x).Pairwise (· < ·) := by
  unfold withTag
  split
  · exact List.Pairwise.nil
  · exact pairwise_collectNames _

/-! ## The tags on a type -/

/-- The walk behind the tags on a type begins at the nodes of the tags on it. -/
theorem mem_tagSeeds {i j : g.Node} :
    j ∈ g.neighbours .taggedBy .outgoing i ++ g.neighbours .metaTaggedBy .outgoing i
      ↔ g.HasEdge (g.name i) .taggedBy (g.name j)
        ∨ g.HasEdge (g.name i) .metaTaggedBy (g.name j) := by
  rw [List.mem_append, mem_neighbours_iff, mem_neighbours_iff]
  rfl

/-- **The tags on a type are the shown names that it carries**, itself left out. -/
theorem mem_tagsOn {x t : String} :
    t ∈ g.tagsOn x
      ↔ t ≠ x ∧ g.Shows t ∧ (g.Carries .taggedBy x t ∨ g.Carries .metaTaggedBy x t) := by
  unfold tagsOn
  split
  · next hnone =>
    constructor
    · exact fun h => absurd h List.not_mem_nil
    · rintro ⟨-, -, hcarries⟩
      obtain ⟨i, hname⟩ := hcarries.elim Carries.exists_carrier Carries.exists_carrier
      exact absurd hname (g.node?_eq_none_iff.1 hnone i)
  · next start hsome =>
    obtain rfl : g.name start = x := g.node?_eq_some_iff.1 hsome
    rw [mem_collectNames]
    constructor
    · rintro ⟨hshows, j, hj, rfl⟩
      obtain ⟨hreach, hne⟩ := List.mem_filter.1 hj
      obtain ⟨u, hu, hpath⟩ := mem_reach.1 hreach
      refine ⟨fun heq => absurd (g.name_injective heq) (of_decide_eq_true hne), hshows, ?_⟩
      exact (mem_tagSeeds.1 hu).imp (fun hedge => ⟨g.name u, hedge, hpath⟩)
        fun hedge => ⟨g.name u, hedge, hpath⟩
    · rintro ⟨hne, hshows, hcarries⟩
      obtain ⟨u, hedge, hpath⟩ : ∃ u, (g.HasEdge (g.name start) .taggedBy u
          ∨ g.HasEdge (g.name start) .metaTaggedBy u)
          ∧ Relation.ReflTransGen (g.Leads .metaTaggedBy .outgoing) u t := by
        rcases hcarries with ⟨u, hedge, hpath⟩ | ⟨u, hedge, hpath⟩
        · exact ⟨u, .inl hedge, hpath⟩
        · exact ⟨u, .inr hedge, hpath⟩
      obtain ⟨i, rfl⟩ : ∃ i : g.Node, g.name i = u :=
        hedge.elim HasEdge.exists_target HasEdge.exists_target
      obtain ⟨j, rfl, -⟩ := exists_node_of_path hpath
      refine ⟨hshows, j, List.mem_filter.2 ⟨?_, ?_⟩, rfl⟩
      · exact mem_reach.2 ⟨i, mem_tagSeeds.2 hedge, hpath⟩
      · exact decide_eq_true fun heq => hne (heq ▸ rfl)

theorem pairwise_tagsOn (g : TypeGraph) (x : String) : (g.tagsOn x).Pairwise (· < ·) := by
  unfold tagsOn
  split
  · exact List.Pairwise.nil
  · exact pairwise_collectNames _

/-- **The tags on a tag are its meta-tags**, on a cycle of tags too. -/
theorem tagsOn_of_tag {x : String} {r : TypeRecord} (hr : g.record? x = some r)
    (htag : r.kind = .tag) : g.tagsOn x = g.closure .metaTaggedBy .outgoing x := by
  have hnot : ∀ t, ¬ g.Carries .taggedBy x t := fun t hcarries => by
    obtain ⟨s, hs, hkind⟩ := hcarries.kind_ne_tag
    exact hkind (Option.some.inj (hs.symm.trans hr) ▸ htag)
  refine (pairwise_tagsOn g x).eq_of_mem_iff (pairwise_closure _ _ x) fun t => ?_
  rw [mem_tagsOn, mem_closure, carries_metaTaggedBy_iff]
  constructor
  · rintro ⟨hne, hshows, hcarries⟩
    exact ⟨hne, hcarries.resolve_left (hnot t), hshows⟩
  · rintro ⟨hne, hpath, hshows⟩
    exact ⟨hne, hshows, .inr hpath⟩

/-! ## The types with a tag on a member -/

/-- **The types with a tag on a routine** are those that declare it, whether or not it has
a record. -/
theorem mem_withRoutineTag {n x : String} :
    n ∈ g.withRoutineTag x
      ↔ g.Shows n ∧ ∃ r, g.record? n = some r ∧ r.Declares .routineTaggedBy x := by
  rw [withRoutineTag, mem_collectNames_filter fun r => r.hasRoutineTag x]
  simp only [TypeRecord.hasRoutineTag, TypeRecord.routineTags, TypeRecord.Declares,
    List.mem_flatMap, List.mem_map, decide_eq_true_eq]

/-- **The types with a tag on an attribute** are those that declare it, whether or not it
has a record. -/
theorem mem_withAttributeTag {n x : String} :
    n ∈ g.withAttributeTag x
      ↔ g.Shows n ∧ ∃ r, g.record? n = some r ∧ r.Declares .attributeTaggedBy x := by
  rw [withAttributeTag, mem_collectNames_filter fun r => r.hasAttributeTag x]
  simp only [TypeRecord.hasAttributeTag, TypeRecord.attributeTags, TypeRecord.Declares,
    List.mem_flatMap, List.mem_map, decide_eq_true_eq]

/-! ## The answers -/

/-- **The questions about the tags of types.** The types with a tag are those that are no
tags and carry it; the tags on a type are those that it carries, by either relation and
itself left out; and on a tag these are its meta-tags. -/
theorem answer_tags (g : TypeGraph) (x : String) :
    ((g.answer .withTag x).Pairwise (· < ·)
      ∧ ∀ n, n ∈ g.answer .withTag x ↔ g.Shows n
        ∧ (∃ r, g.record? n = some r ∧ r.kind ≠ .tag) ∧ g.Carries .taggedBy n x)
    ∧ ((g.answer .tagsOn x).Pairwise (· < ·)
      ∧ ∀ t, t ∈ g.answer .tagsOn x ↔ t ≠ x ∧ g.Shows t
        ∧ (g.Carries .taggedBy x t ∨ g.Carries .metaTaggedBy x t))
    ∧ ∀ r, g.record? x = some r → r.kind = .tag →
        g.answer .tagsOn x = g.answer .metaTagsOn x := by
  refine ⟨⟨pairwise_withTag g x, fun n => mem_withTag.trans ⟨?_, ?_⟩⟩,
    ⟨pairwise_tagsOn g x, fun _ => mem_tagsOn⟩, fun r hr htag => tagsOn_of_tag hr htag⟩
  · exact fun ⟨hshows, hcarries⟩ => ⟨hshows, hcarries.kind_ne_tag, hcarries⟩
  · exact fun ⟨hshows, _, hcarries⟩ => ⟨hshows, hcarries⟩

/-- Two tags on each other, one of them on a type. -/
def badges : List TypeRecord :=
  [{ name := "Bold", kind := .tag, tags := [{ name := "Loud" }] },
   { name := "Loud", kind := .tag, tags := [{ name := "Bold" }] },
   { name := "Parrot", kind := .standard, tags := [{ name := "Bold" }] }]

theorem answer_tags_badges :
    ∃ g : TypeGraph, ofRecords {} badges = .ok g
      ∧ "Parrot" ∈ g.answer .withTag "Loud"
      ∧ "Loud" ∈ g.answer .tagsOn "Parrot"
      ∧ "Bold" ∉ g.answer .tagsOn "Bold"
      ∧ g.answer .tagsOn "Bold" = g.answer .metaTagsOn "Bold" := by
  obtain ⟨g, hg, hsettings, -, hrecord, hedge⟩ :=
    @exists_hasEdge_of_relates {} badges (by decide) (by decide) (by decide)
  have hcarries : g.Carries .taggedBy "Parrot" "Loud" :=
    ⟨"Bold", hedge badges[2] (by decide) badges[0] (by decide) .taggedBy (by decide),
      .single (hedge badges[0] (by decide) badges[1] (by decide) .metaTaggedBy (by decide))⟩
  have hparrot : g.Shows "Parrot" :=
    ⟨by rw [hsettings]; decide, badges[2], hrecord badges[2] (by decide), .inl rfl⟩
  have hloud : g.Shows "Loud" :=
    ⟨by rw [hsettings]; decide, badges[1], hrecord badges[1] (by decide), .inl rfl⟩
  refine ⟨g, hg, ?_, ?_, ?_, ?_⟩
  · exact ((answer_tags g "Loud").1.2 "Parrot").2
      ⟨hparrot, ⟨badges[2], hrecord badges[2] (by decide), by decide⟩, hcarries⟩
  · exact ((answer_tags g "Parrot").2.1.2 "Loud").2 ⟨by decide, hloud, .inl hcarries⟩
  · exact fun h => (((answer_tags g "Bold").2.1.2 "Bold").1 h).1 rfl
  · exact (answer_tags g "Bold").2.2 badges[0] (hrecord badges[0] (by decide)) rfl

end TypeAtlas.TypeGraph
