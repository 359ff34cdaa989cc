import TypeAtlas.Record.TypeRecord

/-!
# Records in the order of their names

Records arrive in any order and are arranged by name before anything else is done with
them. In an arrangement, records of one name stand side by side, so whether a name occurs
twice is seen from neighbours alone (`duplicate?`), and so is which records to leave out
for each name to occur once (`dropRepeats`). Main statements: an arrangement without
duplicates is strictly ascending (`pairwise_lt_of_duplicate?_eq_none`), and so is one that
has been thinned out (`pairwise_dropRepeats`), which loses nothing if a name has only one
record (`mem_dropRepeats`).
-/

namespace TypeAtlas.TypeRecord

/-- **The records of a list in the order of their names.** -/
def arrange (records : List TypeRecord) : List TypeRecord :=
  records.mergeSort fun a b => a.name ≤ b.name

theorem pairwise_arrange (records : List TypeRecord) :
    (arrange records).Pairwise fun a b => a.name ≤ b.name := by
  have h := @List.pairwise_mergeSort _ (fun a b : TypeRecord => decide (a.name ≤ b.name))
    (fun a b c hab hbc => by
      simp only [decide_eq_true_eq] at hab hbc ⊢
      exact String.le_trans hab hbc)
    (fun a b => by simpa using String.le_total a.name b.name) records
  simpa [arrange] using h

theorem perm_arrange (records : List TypeRecord) : (arrange records).Perm records :=
  List.mergeSort_perm records _

@[simp] theorem mem_arrange {records : List TypeRecord} {r : TypeRecord} :
    r ∈ arrange records ↔ r ∈ records :=
  (perm_arrange records).mem_iff

/-- Records in ascending order are arranged already. -/
theorem arrange_eq_self {records : List TypeRecord}
    (h : records.Pairwise fun a b => a.name < b.name) : arrange records = records :=
  List.mergeSort_of_pairwise (h.imp fun hlt => by
    simpa using String.not_lt.1 (String.lt_asymm hlt))

/-- The first name that two neighbours in a list of records share. -/
def duplicate? : List TypeRecord → Option String
  | a :: b :: rest => if a.name = b.name then some a.name else duplicate? (b :: rest)
  | _ => none

theorem duplicate?_eq_none {records : List TypeRecord}
    (h : records.Pairwise fun a b => a.name ≠ b.name) : duplicate? records = none := by
  induction records with
  | nil => rfl
  | cons a rest ih =>
    obtain ⟨hfirst, hrest⟩ := List.pairwise_cons.1 h
    cases rest with
    | nil => rfl
    | cons b rest =>
      rw [duplicate?, if_neg (hfirst b List.mem_cons_self)]
      exact ih hrest

/-- **Ascending records without neighbours of one name are strictly ascending.** -/
theorem pairwise_lt_of_duplicate?_eq_none {records : List TypeRecord}
    (hsorted : records.Pairwise fun a b => a.name ≤ b.name)
    (hnone : duplicate? records = none) :
    records.Pairwise fun a b => a.name < b.name := by
  induction records with
  | nil => exact List.Pairwise.nil
  | cons a rest ih =>
    obtain ⟨hfirst, hrest⟩ := List.pairwise_cons.1 hsorted
    cases rest with
    | nil => simp
    | cons b rest =>
      simp only [duplicate?] at hnone
      split at hnone
      · cases hnone
      · next hne =>
        have hstrict := ih hrest hnone
        have hab : a.name < b.name :=
          NameList.lt_of_not_lt_of_ne (String.not_lt.2 (hfirst b (by simp))) (Ne.symm hne)
        refine List.pairwise_cons.2 ⟨fun c hc => ?_, hstrict⟩
        rcases List.mem_cons.1 hc with rfl | hc
        · exact hab
        · exact String.lt_trans hab ((List.pairwise_cons.1 hstrict).1 c hc)

/-- **Whether a name comes twice**, or more often, in a list of records. -/
def Repeats (records : List TypeRecord) (name : String) : Prop :=
  2 ≤ (records.map (·.name)).count name

theorem repeats_of_perm {records others : List TypeRecord} (h : records.Perm others) :
    Repeats records = Repeats others :=
  funext fun name => by rw [Repeats, Repeats, (h.map _).count_eq]

theorem repeats_cons {a : TypeRecord} {rest : List TypeRecord} {name : String} :
    Repeats (a :: rest) name
      ↔ (∃ b ∈ rest, a.name = name ∧ b.name = name) ∨ Repeats rest name := by
  have hmem : (∃ b ∈ rest, b.name = name) ↔ 0 < (rest.map (·.name)).count name := by
    rw [List.count_pos_iff, List.mem_map]
  by_cases hname : a.name = name
  · simp only [Repeats, List.map_cons, hname, List.count_cons_self, true_and, hmem]
    omega
  · simp [Repeats, hname]

theorem Repeats.exists_mem {records : List TypeRecord} {name : String}
    (h : Repeats records name) : ∃ r ∈ records, r.name = name :=
  List.mem_map.1 (List.count_pos_iff.1 (Nat.lt_of_lt_of_le Nat.zero_lt_two h))

/-- No name comes twice exactly if all names differ. -/
theorem pairwise_ne_iff {records : List TypeRecord} :
    (records.Pairwise fun a b => a.name ≠ b.name) ↔ ∀ name, ¬ Repeats records name := by
  induction records with
  | nil => simp [Repeats]
  | cons a rest ih =>
    rw [List.pairwise_cons, ih]
    simp only [repeats_cons, not_or, not_exists, not_and, forall_and]
    exact and_congr_left fun _ =>
      ⟨fun h name b hb ha hbname => h b hb (ha.trans hbname.symm),
        fun h b hb heq => h b.name b hb heq rfl⟩

/-- **The name that neighbours in ascending records share first** is the first of the
names that come twice. -/
theorem isFirst_of_duplicate? {records : List TypeRecord}
    (hsorted : records.Pairwise fun a b => a.name ≤ b.name) {name : String}
    (h : duplicate? records = some name) : NameList.IsFirst (Repeats records) name := by
  induction records with
  | nil => cases h
  | cons a rest ih =>
    obtain ⟨hfirst, hrest⟩ := List.pairwise_cons.1 hsorted
    cases rest with
    | nil => cases h
    | cons b rest =>
      unfold duplicate? at h
      split at h
      · next heq =>
        obtain rfl := Option.some.inj h
        refine ⟨repeats_cons.2 (.inl ⟨b, List.mem_cons_self, rfl, heq.symm⟩),
          fun other hother => ?_⟩
        obtain ⟨r, hr, rfl⟩ := Repeats.exists_mem hother
        rcases List.mem_cons.1 hr with rfl | hr
        · exact String.le_refl _
        · exact hfirst r hr
      · next hne =>
        obtain ⟨hrepeats, hleast⟩ := ih hrest h
        refine ⟨repeats_cons.2 (.inr hrepeats), fun other hother => ?_⟩
        rcases repeats_cons.1 hother with ⟨c, hc, rfl, hcname⟩ | hother
        · -- the first name would have to come again, but its neighbour is greater already
          have hba : b.name ≤ a.name := by
            rcases List.mem_cons.1 hc with rfl | hc
            · exact hcname ▸ String.le_refl _
            · exact hcname ▸ (List.pairwise_cons.1 hrest).1 c hc
          exact absurd (String.le_antisymm (hfirst b List.mem_cons_self) hba) hne
        · exact hleast other hother

/-- No name is found to come twice exactly if all names differ. -/
theorem duplicate?_arrange_eq_none_iff {records : List TypeRecord} :
    duplicate? (arrange records) = none ↔ records.Pairwise fun a b => a.name ≠ b.name := by
  rw [← (perm_arrange records).pairwise_iff Ne.symm]
  exact ⟨fun h => (pairwise_lt_of_duplicate?_eq_none (pairwise_arrange records) h).imp
    fun hlt => String.ne_of_lt hlt, duplicate?_eq_none⟩

/-- **A name is found to come twice** exactly if it is the first that does, whatever the
order of the records. -/
theorem duplicate?_arrange_eq_some_iff {records : List TypeRecord} {name : String} :
    duplicate? (arrange records) = some name ↔ NameList.IsFirst (Repeats records) name := by
  have hfirst : ∀ {name}, duplicate? (arrange records) = some name →
      NameList.IsFirst (Repeats records) name := fun h =>
    repeats_of_perm (perm_arrange records) ▸ isFirst_of_duplicate? (pairwise_arrange records) h
  refine ⟨hfirst, fun h => ?_⟩
  cases hfound : duplicate? (arrange records) with
  | none => exact absurd h.1 (pairwise_ne_iff.1 (duplicate?_arrange_eq_none_iff.1 hfound) name)
  | some other => rw [h.eq (hfirst hfound)]

theorem pairwise_lt_arrange {records : List TypeRecord}
    (h : records.Pairwise fun a b => a.name ≠ b.name) :
    (arrange records).Pairwise fun a b => a.name < b.name :=
  pairwise_lt_of_duplicate?_eq_none (pairwise_arrange records)
    (duplicate?_arrange_eq_none_iff.2 h)

/-- **Records with distinct names have one arrangement**, whatever their order. -/
theorem arrange_eq_of_perm {records others : List TypeRecord} (hperm : records.Perm others)
    (h : others.Pairwise fun a b => a.name ≠ b.name) : arrange records = arrange others :=
  ((perm_arrange records).trans (hperm.trans (perm_arrange others).symm)).eq_of_pairwise
    (fun _ _ _ _ hab hba => absurd hba (String.lt_asymm hab))
    (pairwise_lt_arrange ((hperm.pairwise_iff Ne.symm).2 h)) (pairwise_lt_arrange h)

/-- The records of a list without those that follow a record of the same name. -/
def dropRepeats : List TypeRecord → List TypeRecord
  | [] => []
  | a :: rest =>
    match dropRepeats rest with
    | [] => [a]
    | b :: kept => if a.name = b.name then a :: kept else a :: b :: kept

theorem mem_of_mem_dropRepeats {records : List TypeRecord} {r : TypeRecord}
    (h : r ∈ dropRepeats records) : r ∈ records := by
  induction records with
  | nil => exact h
  | cons a rest ih =>
    unfold dropRepeats at h
    cases hkept : dropRepeats rest with
    | nil =>
      rw [hkept] at h
      exact List.mem_cons.2 (.inl (List.mem_singleton.1 h))
    | cons b kept =>
      rw [hkept] at h ih
      dsimp only at h
      split at h
      · exact List.mem_cons.2 ((List.mem_cons.1 h).imp_right fun h => ih (List.mem_cons_of_mem b h))
      · exact List.mem_cons.2 ((List.mem_cons.1 h).imp_right ih)

/-- **Thinning out ascending records leaves them strictly ascending.** -/
theorem pairwise_dropRepeats {records : List TypeRecord}
    (h : records.Pairwise fun a b => a.name ≤ b.name) :
    (dropRepeats records).Pairwise fun a b => a.name < b.name := by
  induction records with
  | nil => exact List.Pairwise.nil
  | cons a rest ih =>
    obtain ⟨hfirst, hrest⟩ := List.pairwise_cons.1 h
    unfold dropRepeats
    cases hkept : dropRepeats rest with
    | nil => exact List.pairwise_singleton _ a
    | cons b kept =>
      have hstrict : (b :: kept).Pairwise fun a b => a.name < b.name := hkept ▸ ih hrest
      obtain ⟨hb, hothers⟩ := List.pairwise_cons.1 hstrict
      have hle : a.name ≤ b.name :=
        hfirst b (mem_of_mem_dropRepeats (hkept ▸ List.mem_cons_self))
      dsimp only
      split
      · next heq => exact List.pairwise_cons.2 ⟨fun c hc => heq ▸ hb c hc, hothers⟩
      · next hne =>
        have hlt : a.name < b.name :=
          NameList.lt_of_not_lt_of_ne (String.not_lt.2 hle) (Ne.symm hne)
        refine List.pairwise_cons.2 ⟨fun c hc => ?_, hstrict⟩
        rcases List.mem_cons.1 hc with rfl | hc
        · exact hlt
        · exact String.lt_trans hlt (hb c hc)

/-- Thinning out loses no record, if records of one name are one record. -/
theorem mem_dropRepeats {records : List TypeRecord} {r : TypeRecord}
    (h : ∀ a ∈ records, ∀ b ∈ records, a.name = b.name → a = b) :
    r ∈ dropRepeats records ↔ r ∈ records := by
  refine ⟨mem_of_mem_dropRepeats, fun hr => ?_⟩
  induction records with
  | nil => exact hr
  | cons a rest ih =>
    have hkeeps : r ∈ rest → r ∈ dropRepeats rest := ih fun b hb c hc =>
      h b (List.mem_cons_of_mem a hb) c (List.mem_cons_of_mem a hc)
    unfold dropRepeats
    cases hkept : dropRepeats rest with
    | nil =>
      rw [hkept] at hkeeps
      exact List.mem_singleton.2 ((List.mem_cons.1 hr).resolve_right fun hr => by
        cases hkeeps hr)
    | cons b kept =>
      rw [hkept] at hkeeps
      dsimp only
      split
      · next heq =>
        have hab : a = b := h a List.mem_cons_self b
          (List.mem_cons_of_mem a (mem_of_mem_dropRepeats (hkept ▸ List.mem_cons_self))) heq
        exact (List.mem_cons.1 hr).elim (fun hr => List.mem_cons.2 (.inl hr))
          fun hr => hab ▸ hkeeps hr
      · exact List.mem_cons.2 ((List.mem_cons.1 hr).imp_right hkeeps)

end TypeAtlas.TypeRecord
