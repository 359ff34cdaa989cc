/-!
# Name lists

A set of names is written as the strictly ascending list of its members, in the
order of code points. `insert` puts one name into such a list, `ofList` arranges
any list of names. Main statements: the members stay the same (`mem_ofList`) and
the result is strictly ascending (`pairwise_ofList`), so it is the only list with
both properties.
-/

namespace TypeAtlas.NameList

/-- **Insertion**: a name goes before the first greater one, and not a second time. -/
def insert (name : String) : List String → List String
  | [] => [name]
  | other :: rest =>
    if name < other then name :: other :: rest
    else if name = other then other :: rest
    else other :: insert name rest

/-- **The ascending list** of the distinct names of a list. -/
def ofList (names : List String) : List String :=
  names.foldr insert []

/-- Names are compared totally: what is neither less nor equal is greater. -/
theorem lt_of_not_lt_of_ne {a b : String} (hlt : ¬ a < b) (hne : a ≠ b) : b < a := by
  by_cases h : b < a
  · exact h
  · exact absurd (String.le_antisymm (String.not_lt.1 h) (String.not_lt.1 hlt)) hne

@[simp] theorem mem_insert {name other : String} {names : List String} :
    other ∈ insert name names ↔ other = name ∨ other ∈ names := by
  induction names with
  | nil => simp [insert]
  | cons head rest ih =>
    unfold insert
    split
    · simp
    · split
      · next h => subst h; simp
      · simp only [List.mem_cons, ih]
        exact ⟨fun h => by rcases h with h | h | h <;> simp [h],
          fun h => by rcases h with h | h | h <;> simp [h]⟩

@[simp] theorem mem_ofList {name : String} {names : List String} :
    name ∈ ofList names ↔ name ∈ names := by
  induction names with
  | nil => simp [ofList]
  | cons head rest ih =>
    rw [show ofList (head :: rest) = insert head (ofList rest) from rfl]
    simp [ih]

theorem pairwise_insert {name : String} {names : List String}
    (h : names.Pairwise (· < ·)) : (insert name names).Pairwise (· < ·) := by
  induction names with
  | nil => simp [insert]
  | cons head rest ih =>
    obtain ⟨hhead, hrest⟩ := List.pairwise_cons.1 h
    unfold insert
    split
    · next hlt =>
      refine List.pairwise_cons.2 ⟨fun other hmem => ?_, h⟩
      rcases List.mem_cons.1 hmem with rfl | hmem
      · exact hlt
      · exact String.lt_trans hlt (hhead _ hmem)
    · split
      · exact h
      · next hnlt hne =>
        refine List.pairwise_cons.2 ⟨fun other hmem => ?_, ih hrest⟩
        rcases mem_insert.1 hmem with rfl | hmem
        · exact lt_of_not_lt_of_ne hnlt hne
        · exact hhead _ hmem

theorem pairwise_ofList (names : List String) : (ofList names).Pairwise (· < ·) := by
  induction names with
  | nil => exact List.Pairwise.nil
  | cons head rest ih => exact pairwise_insert ih

/-- **The first of the names** with a property. -/
def IsFirst (P : String → Prop) (name : String) : Prop :=
  P name ∧ ∀ other, P other → name ≤ other

theorem IsFirst.eq {P : String → Prop} {name other : String} (h : IsFirst P name)
    (hother : IsFirst P other) : name = other :=
  String.le_antisymm (h.2 other hother.1) (hother.2 name h.1)

end TypeAtlas.NameList
