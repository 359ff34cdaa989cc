import TypeAtlas.Number.Binary
import TypeAtlas.Text.NameList

/-!
# Document values

What a document says once it is read, whichever notation it was written in. The
entries of a map are kept in ascending order of their keys, one per key: `Entries` has
the operation that keeps them so, and whoever walks through a map meets its keys in
this order.
-/

namespace TypeAtlas

/-- **A document value.** -/
inductive Data where
  /-- No value. -/
  | null
  /-- A truth value. -/
  | bool (value : Bool)
  /-- A whole number written without point and power. -/
  | integer (value : Int)
  /-- Any other number. -/
  | real (value : Binary64)
  /-- A text. -/
  | text (value : String)
  /-- A sequence of values. -/
  | list (items : List Data)
  /-- Values under keys. -/
  | map (entries : List (String × Data))

namespace Entries

variable {α : Type}

/-- **The entry of a key is set**: it goes before the first greater key, and replaces
the entry of the same key. -/
def set (key : String) (value : α) : List (String × α) → List (String × α)
  | [] => [(key, value)]
  | (other, old) :: rest =>
    if key < other then (key, value) :: (other, old) :: rest
    else if key = other then (key, value) :: rest
    else (other, old) :: set key value rest

/-- The entries of a list arranged by key; of two entries of a key the later one
stays. -/
def ofList (entries : List (String × α)) : List (String × α) :=
  entries.foldl (fun arranged entry => set entry.1 entry.2 arranged) []

/-- The value of a key. -/
def get? (key : String) (entries : List (String × α)) : Option α :=
  (entries.find? fun entry => entry.1 = key).map (·.2)

@[simp] theorem get?_nil (key : String) : get? key ([] : List (String × α)) = none := rfl

theorem get?_cons (key : String) (entry : String × α) (rest : List (String × α)) :
    get? key (entry :: rest) = if entry.1 = key then some entry.2 else get? key rest := by
  unfold get?
  by_cases h : entry.1 = key <;> simp [h]

/-- Setting an entry gives its key the value and leaves the other keys alone. -/
theorem get?_set (key other : String) (value : α) (entries : List (String × α)) :
    get? other (set key value entries)
      = if other = key then some value else get? other entries := by
  induction entries with
  | nil => simp [set, get?_cons, eq_comm]
  | cons entry rest ih =>
    obtain ⟨k, old⟩ := entry
    unfold set
    split
    · simp [get?_cons, eq_comm]
    · split
      · next h => subst h; by_cases hk : key = other <;> simp [get?_cons, hk, eq_comm]
      · next h =>
        by_cases hk : other = key
        · subst hk
          simp [get?_cons, ih, Ne.symm h]
        · simp [get?_cons, ih, hk]

/-- Setting an entry of ascending entries keeps the others and puts the new one in. -/
theorem mem_of_mem_set {key : String} {value : α} {entry : String × α}
    {entries : List (String × α)} (h : entry ∈ set key value entries) :
    entry = (key, value) ∨ entry ∈ entries := by
  induction entries with
  | nil => exact .inl (by simpa [set] using h)
  | cons head rest ih =>
    obtain ⟨k, old⟩ := head
    unfold set at h
    split at h
    · simpa using h
    · split at h
      · rcases List.mem_cons.1 h with h | h
        · exact .inl h
        · exact .inr (List.mem_cons_of_mem _ h)
      · rcases List.mem_cons.1 h with h | h
        · exact .inr (h ▸ List.mem_cons_self)
        · exact (ih h).imp_right (List.mem_cons_of_mem _)

/-- **Entries in ascending order of their keys stay so** when one is set. -/
theorem pairwise_set {key : String} {value : α} {entries : List (String × α)}
    (h : entries.Pairwise fun a b => a.1 < b.1) :
    (set key value entries).Pairwise fun a b => a.1 < b.1 := by
  induction entries with
  | nil => simp [set]
  | cons head rest ih =>
    obtain ⟨k, old⟩ := head
    obtain ⟨hhead, hrest⟩ := List.pairwise_cons.1 h
    unfold set
    split
    · next hlt =>
      refine List.pairwise_cons.2 ⟨fun entry hmem => ?_, h⟩
      rcases List.mem_cons.1 hmem with rfl | hmem
      · exact hlt
      · exact String.lt_trans hlt (hhead _ hmem)
    · split
      · next heq =>
        exact List.pairwise_cons.2 ⟨fun entry hmem => heq ▸ hhead _ hmem, hrest⟩
      · next hnlt hne =>
        refine List.pairwise_cons.2 ⟨fun entry hmem => ?_, ih hrest⟩
        rcases mem_of_mem_set hmem with rfl | hmem
        · exact NameList.lt_of_not_lt_of_ne hnlt hne
        · exact hhead _ hmem

theorem pairwise_ofList (entries : List (String × α)) :
    (ofList entries).Pairwise fun a b => a.1 < b.1 := by
  have hfold : ∀ (pending arranged : List (String × α)),
      (arranged.Pairwise fun a b => a.1 < b.1) →
      (pending.foldl (fun arranged entry => set entry.1 entry.2 arranged) arranged).Pairwise
        fun a b => a.1 < b.1 := by
    intro pending
    induction pending with
    | nil => exact fun _ h => h
    | cons entry pending ih => exact fun _ h => ih _ (pairwise_set h)
  exact hfold entries [] List.Pairwise.nil

/-- Setting an entry under a new key adds it. -/
theorem perm_set {key : String} {value : α} {entries : List (String × α)}
    (h : ∀ entry ∈ entries, entry.1 ≠ key) :
    (set key value entries).Perm ((key, value) :: entries) := by
  induction entries with
  | nil => exact .refl _
  | cons head rest ih =>
    obtain ⟨k, old⟩ := head
    unfold set
    split
    · exact .refl _
    · split
      · next heq => exact absurd heq.symm (h (k, old) List.mem_cons_self)
      · exact ((ih fun entry hmem => h entry (List.mem_cons_of_mem _ hmem)).cons _).trans
          (.swap _ _ _)

/-- **Arranging entries under distinct keys loses none.** -/
theorem perm_ofList {entries : List (String × α)}
    (h : entries.Pairwise fun a b => a.1 ≠ b.1) : (ofList entries).Perm entries := by
  have hfold : ∀ (pending arranged : List (String × α)),
      ((arranged ++ pending).Pairwise fun a b => a.1 ≠ b.1) →
      (pending.foldl (fun arranged entry => set entry.1 entry.2 arranged) arranged).Perm
        (arranged ++ pending) := by
    intro pending
    induction pending with
    | nil => exact fun arranged _ => by simp
    | cons entry pending ih =>
      intro arranged hdistinct
      -- the entry set moves from the pending ones to the front of the arranged ones
      have hset : (set entry.1 entry.2 arranged).Perm (entry :: arranged) :=
        perm_set fun other hother =>
          (List.pairwise_append.1 hdistinct).2.2 other hother entry List.mem_cons_self
      have hperm : (set entry.1 entry.2 arranged ++ pending).Perm
          (arranged ++ entry :: pending) :=
        (hset.append_right pending).trans List.perm_middle.symm
      exact (ih _ ((hperm.pairwise_iff Ne.symm).2 hdistinct)).trans hperm
  exact hfold entries [] h

/-- Arranging entries adds none. -/
theorem mem_of_mem_ofList {entry : String × α} {entries : List (String × α)}
    (h : entry ∈ ofList entries) : entry ∈ entries := by
  have hfold : ∀ (pending arranged : List (String × α)),
      entry ∈ pending.foldl (fun arranged entry => set entry.1 entry.2 arranged) arranged →
      entry ∈ pending ∨ entry ∈ arranged := by
    intro pending
    induction pending with
    | nil => exact fun _ h => .inr h
    | cons other pending ih =>
      intro arranged h
      rcases ih _ h with hpending | hset
      · exact .inl (List.mem_cons_of_mem _ hpending)
      · rcases mem_of_mem_set hset with rfl | harranged
        · exact .inl List.mem_cons_self
        · exact .inr harranged
  exact (hfold entries [] h).resolve_right List.not_mem_nil

/-- Ascending entries are determined by which entries they are. -/
theorem eq_of_perm {entries others : List (String × α)}
    (h : entries.Pairwise fun a b => a.1 < b.1) (hothers : others.Pairwise fun a b => a.1 < b.1)
    (hperm : entries.Perm others) : entries = others :=
  hperm.eq_of_pairwise (fun _ _ _ _ hab hba => absurd hba (String.lt_asymm hab)) h hothers

/-- Ascending entries are what they are arranged to. -/
theorem ofList_eq_self {entries : List (String × α)}
    (h : entries.Pairwise fun a b => a.1 < b.1) : ofList entries = entries :=
  eq_of_perm (pairwise_ofList entries) h (perm_ofList (h.imp String.ne_of_lt))

end Entries

namespace Data

/-- A map of named values. -/
def ofFields (fields : List (String × Data)) : Data := .map (Entries.ofList fields)

/-- A list of texts. -/
def ofTexts (texts : List String) : Data := .list (texts.map .text)

/-- A value that may be absent. -/
def ofOption {α : Type} (encode : α → Data) : Option α → Data
  | none => .null
  | some a => encode a

end Data

end TypeAtlas
