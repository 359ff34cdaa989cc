import Mathlib.Data.List.Forall2
import Mathlib.Data.List.Nodup
import TypeAtlas.Data.Decode

/-!
# The spellings of a record

A document may write one record in many ways. In the map shape the fields come under
their names in any order, fields at their defaults may be left out, and entries under
other names say nothing. In the list shape the fields come in their order, and those at
their defaults may be left out from the end. Each value inside is free to be written in
its own way again.

`Spelling` says this of a list of facets, without a word about decoding: what each field
is called, which part of the record it holds, what it is when it is left out, and as
which document values it may be written. `Layout.Reads` connects facets with the layout
that decodes them: the two list the same fields in the same order, reading one field
leaves the others alone, and the fields together make up the record. Then every spelling
decodes to the record it spells (`Layout.Reads.decodes`).

Both shapes are read field by field, so the proof is one invariant: every field has its
value already or is still to come (`Agrees`). Reading a field takes its name off the
fields to come, in whatever order the document gives them.
-/

namespace TypeAtlas

/-! ## What spells what -/

/-- **A field of a record as documents write it.** -/
structure Facet (α : Type) where
  /-- The key of the field in a map. -/
  name : String
  /-- The type of its values. -/
  Value : Type
  /-- The value in a record. -/
  get : α → Value
  /-- The value where the field is left out, if it may be. -/
  default? : Option Value
  /-- What a value may be written as. -/
  Spells : Value → Data → Prop

namespace Facet

variable {α β : Type}

/-- A field that has to be given. -/
@[reducible]
def required (name : String) (get : α → β) (Spells : β → Data → Prop) : Facet α :=
  ⟨name, β, get, none, Spells⟩

/-- A field that may be left out where it has its default. -/
@[reducible]
def optional (name : String) (get : α → β) (default : β) (Spells : β → Data → Prop) :
    Facet α :=
  ⟨name, β, get, some default, Spells⟩

/-- The value of the field in a record is written as a document value. -/
def Writes (f : Facet α) (a : α) (d : Data) : Prop := f.Spells (f.get a) d

/-- The field may be left out of a record, as it has its default there. -/
def Omissible (f : Facet α) (a : α) : Prop := f.default? = some (f.get a)

end Facet

/-- **A list spells a record by position**: its values are those of the fields in order,
and the fields that it does not come to may be left out. -/
def SpellsItems {α : Type} (a : α) : List (Facet α) → List Data → Prop
  | [], items => items = []
  | f :: fs, [] => f.Omissible a ∧ SpellsItems a fs []
  | f :: fs, d :: items => f.Writes a d ∧ SpellsItems a fs items

/-- **A document value spells a record** with some facets. -/
inductive Spelling {α : Type} (facets : List (Facet α)) (a : α) : Data → Prop
  /-- The map shape: what stands under the name of a field is its value, and a field under
  whose name nothing stands may be left out. Entries under other names are free. -/
  | map {entries : List (String × Data)}
      (given : ∀ f ∈ facets, ∀ d, (f.name, d) ∈ entries → f.Writes a d)
      (omitted : ∀ f ∈ facets, f.name ∉ entries.map (·.1) → f.Omissible a) :
      Spelling facets a (.map entries)
  /-- The list shape: the values of the fields in their order. -/
  | list {items : List Data} (given : SpellsItems a facets items) :
      Spelling facets a (.list items)

variable {β : Type}

/-- A value with one way to write it. -/
def Only (encode : β → Data) (b : β) (d : Data) : Prop := d = encode b

/-- **A word out of a vocabulary** is written as it is, or as the only key of a map with
no value under it. -/
def Word (word : β → String) (b : β) (d : Data) : Prop :=
  d = .text (word b) ∨ d = .map [(word b, .null)]

/-- **A list** is written as the list of its members, each written in a way of its own. -/
def ListOf (Spells : β → Data → Prop) (bs : List β) (d : Data) : Prop :=
  ∃ items, d = .list items ∧ List.Forall₂ Spells bs items

/-- **A map of values under keys** is written as the map with the same keys, each value
written in a way of its own. -/
def MapOf (Spells : β → Data → Prop) (entries : List (String × β)) (d : Data) : Prop :=
  ∃ given, d = .map given ∧ List.Forall₂ (fun entry field =>
    field.1 = entry.1 ∧ Spells entry.2 field.2) entries given

/-! ## Decoding values -/

/-- What a decoder makes of the items of a list one by one. -/
theorem mapM_eq_ok {γ ε : Type} {f : γ → Except ε β} {xs : List γ} {ys : List β}
    (h : List.Forall₂ (fun y x => f x = .ok y) ys xs) : xs.mapM f = .ok ys := by
  induction h with
  | nil => rfl
  | cons hfirst _ ih =>
    rw [List.mapM_cons, hfirst, ih]
    rfl

/-- **A decoder reads what spells a value**, however the value is written. -/
def Decodes {β : Type} (Spells : β → Data → Prop) (decode : Data → Decoded β) : Prop :=
  ∀ b d, Spells b d → decode d = .ok b

namespace Decodes

variable {β : Type}

theorem text : Decodes (Only .text) Data.asText := by
  rintro s d rfl
  rfl

theorem optionalText : Decodes (Only (.ofOption .text)) Data.asOptionalText := by
  rintro (_ | s) d rfl <;> rfl

theorem truth : Decodes (Only .bool) Data.asTruth := by
  rintro b d rfl
  rfl

/-- **A list is read** if its members are. -/
theorem listOf {Spells : β → Data → Prop} {decode : Data → Decoded β}
    (hdecode : Decodes Spells decode) : Decodes (ListOf Spells) (Data.asListOf decode) := by
  rintro bs d ⟨items, rfl, hall⟩
  exact mapM_eq_ok (hall.imp hdecode)

/-- **A map is read** if its values are. -/
theorem mapOf {Spells : β → Data → Prop} {decode : Data → Decoded β}
    (hdecode : Decodes Spells decode) : Decodes (MapOf Spells) (Data.asMapOf decode) := by
  rintro entries d ⟨given, rfl, hall⟩
  refine mapM_eq_ok (hall.imp fun entry field ⟨hkey, hvalue⟩ => ?_)
  rw [hdecode _ _ hvalue, hkey]
  rfl

theorem texts : Decodes (ListOf (Only .text)) Data.asTexts := .listOf .text

/-- **A word is read** as the member of the vocabulary that it is the word for. -/
theorem word {known : List β} {word : β → String} (hmem : ∀ b, b ∈ known)
    (hinj : ∀ b c, word b = word c → b = c) :
    Decodes (Word word) (Data.asWord known word) := by
  intro b d h
  have hfind : Data.asWord.find known word (word b) = .ok b := by
    unfold Data.asWord.find
    split
    · next c hsome =>
      have hword : word c = word b := by simpa using List.find?_some hsome
      rw [hinj c b hword]
    · next hnone =>
      exact absurd (decide_eq_true rfl) (List.find?_eq_none.1 hnone b (hmem b))
  rcases h with rfl | rfl
  · exact hfind
  · simp only [Data.asWord, hfind]

end Decodes

/-! ## Decoding records -/

variable {α : Type}

/-- **A field of a layout reads a facet**: from whatever its value is written as, it puts
the value into the record and leaves the other facets as they are. -/
structure Field.Reads (facets : List (Facet α)) (field : Field α) (f : Facet α) : Prop where
  /-- Both have one name. -/
  name : field.name = f.name
  /-- The field is required if it has no default. -/
  required : field.required = f.default?.isNone
  /-- The value is read, and nothing else is changed. -/
  read : ∀ v d, f.Spells v d → ∀ a, ∃ b, field.read d a = .ok b ∧ f.get b = v
    ∧ ∀ g ∈ facets, g.name ≠ f.name → g.get b = g.get a

theorem Field.Reads.of {β : Type} {facets : List (Facet α)} {name : String}
    {get : α → β} {default? : Option β} {Spells : β → Data → Prop} {required : Bool}
    {decode : Data → Decoded β} {put : β → α → α}
    (hrequired : required = default?.isNone) (hdecode : Decodes Spells decode)
    (hget : ∀ v a, get (put v a) = v)
    (hother : ∀ v a, ∀ g ∈ facets, g.name ≠ name → g.get (put v a) = g.get a) :
    Field.Reads facets (.of name required decode put) ⟨name, β, get, default?, Spells⟩ where
  name := rfl
  required := hrequired
  read v d hspells a := by
    refine ⟨put v a, ?_, hget v a, hother v a⟩
    change (put · a) <$> decode d = _
    rw [hdecode v d hspells]
    rfl

/-- **A layout reads facets**: it has a field for each, in their order. -/
structure Layout.Reads (l : Layout α) (facets : List (Facet α)) : Prop where
  /-- The fields read the facets one by one. -/
  fields : List.Forall₂ (Field.Reads facets) l.fields facets
  /-- What may be left out is at its default before anything is read. -/
  blank : ∀ f ∈ facets, ∀ v, f.default? = some v → f.get l.blank = v
  /-- No two facets have the same name. -/
  distinct : (facets.map (·.name)).Nodup
  /-- A record is made up of its facets. -/
  determined : ∀ a b, (∀ f ∈ facets, f.get a = f.get b) → a = b

/-- **How far a record has been read**: each facet is as it has to be, unless its name is
among those still to come. -/
def Agrees (facets : List (Facet α)) (goal a : α) (pending : List String) : Prop :=
  ∀ f ∈ facets, f.name ∈ pending ∨ f.get a = f.get goal

/-- Of two lists that correspond one by one, what is in the one has its counterpart in the
other. -/
theorem exists_mem_of_forall₂ {β γ : Type*} {R : β → γ → Prop} {bs : List β} {cs : List γ}
    (h : List.Forall₂ R bs cs) {b : β} (hb : b ∈ bs) : ∃ c ∈ cs, R b c := by
  induction h with
  | nil => cases hb
  | @cons first c bs cs hfirst _ ih =>
    rcases List.mem_cons.1 hb with rfl | hb
    · exact ⟨c, List.mem_cons_self, hfirst⟩
    · obtain ⟨c, hc, hrel⟩ := ih hb
      exact ⟨c, List.mem_cons_of_mem _ hc, hrel⟩

namespace Layout.Reads

variable {l : Layout α} {facets : List (Facet α)} {goal a : α}

/-- With nothing to come the record has been read. -/
theorem eq_of_agrees (h : l.Reads facets) (hagrees : Agrees facets goal a []) : a = goal :=
  h.determined a goal fun f hf => (hagrees f hf).resolve_left List.not_mem_nil

/-- **Reading a field** takes its name off those to come. -/
theorem exists_read (h : l.Reads facets) {f : Facet α} {field : Field α} (hf : f ∈ facets)
    (hfield : Field.Reads facets field f) {d : Data} (hwrites : f.Writes goal d)
    {pending : List String} (hagrees : Agrees facets goal a (f.name :: pending)) :
    ∃ b, field.read d a = .ok b ∧ Agrees facets goal b pending := by
  obtain ⟨b, hread, hget, hother⟩ := hfield.read _ d hwrites a
  refine ⟨b, hread, fun g hg => ?_⟩
  by_cases hname : g.name = f.name
  · obtain rfl := List.inj_on_of_nodup_map h.distinct hg hf hname
    exact .inr hget
  · rw [hother g hg hname]
    exact (hagrees g hg).imp_left fun hmem => (List.mem_cons.1 hmem).resolve_left hname

/-- The record with every field at its default agrees where fields are left out. -/
theorem agrees_blank (h : l.Reads facets) {pending : List String}
    (homitted : ∀ f ∈ facets, f.name ∉ pending → f.Omissible goal) :
    Agrees facets goal l.blank pending := by
  intro f hf
  by_cases hmem : f.name ∈ pending
  · exact .inl hmem
  · exact .inr (h.blank f hf _ (homitted f hf hmem))

/-! ### The map shape -/

theorem exists_facet (h : l.Reads facets) {field : Field α} (hfield : field ∈ l.fields) :
    ∃ f ∈ facets, Field.Reads facets field f :=
  exists_mem_of_forall₂ h.fields hfield

theorem exists_field (h : l.Reads facets) {f : Facet α} (hf : f ∈ facets) :
    ∃ field ∈ l.fields, Field.Reads facets field f :=
  exists_mem_of_forall₂ h.fields.flip hf

theorem readEntries_eq (h : l.Reads facets) {entries : List (String × Data)}
    (hgiven : ∀ f ∈ facets, ∀ d, (f.name, d) ∈ entries → f.Writes goal d)
    (hagrees : Agrees facets goal a (entries.map (·.1))) :
    l.readEntries entries a = .ok goal := by
  induction entries generalizing a with
  | nil => rw [Layout.readEntries, h.eq_of_agrees hagrees]
  | cons entry rest ih =>
    obtain ⟨key, d⟩ := entry
    have hrest : ∀ f ∈ facets, ∀ d, (f.name, d) ∈ rest → f.Writes goal d :=
      fun f hf d hmem => hgiven f hf d (List.mem_cons_of_mem _ hmem)
    unfold Layout.readEntries
    split
    · next field hfind =>
      obtain ⟨f, hf, hfield⟩ := h.exists_facet (List.mem_of_find?_eq_some hfind)
      obtain rfl : f.name = key := by
        rw [← hfield.name]
        simpa using List.find?_some hfind
      obtain ⟨b, hread, hb⟩ :=
        h.exists_read hf hfield (hgiven f hf d List.mem_cons_self) hagrees
      rw [hread]
      exact ih hrest hb
    · next hfind =>
      -- a key that names no field is not the name of a facet either
      refine ih hrest fun f hf => (hagrees f hf).imp_left fun hmem => ?_
      refine (List.mem_cons.1 hmem).resolve_left fun hname => ?_
      obtain ⟨field, hmem, hfield⟩ := h.exists_field hf
      have := List.find?_eq_none.1 hfind field hmem
      simp [hfield.name, hname] at this

theorem missing?_eq_none (h : l.Reads facets) {entries : List (String × Data)}
    (homitted : ∀ f ∈ facets, f.name ∉ entries.map (·.1) → f.Omissible goal) :
    l.missing? entries = none := by
  rw [Layout.missing?, Option.map_eq_none_iff, List.find?_eq_none]
  intro field hmem hmissing
  obtain ⟨f, hf, hfield⟩ := h.exists_facet hmem
  obtain ⟨hrequired, habsent⟩ : f.default? = none
      ∧ ∀ entry ∈ entries, ¬ entry.1 = f.name := by
    simpa [hfield.required, hfield.name] using hmissing
  have homissible : f.Omissible goal := homitted f hf fun hname => by
    obtain ⟨entry, hentry, heq⟩ := List.mem_map.1 hname
    exact habsent entry hentry heq
  rw [Facet.Omissible, hrequired] at homissible
  cases homissible

/-! ### The list shape -/

theorem readItems_eq (h : l.Reads facets) {fields : List (Field α)} {fs : List (Facet α)}
    (hfields : List.Forall₂ (Field.Reads facets) fields fs) (hsub : ∀ f ∈ fs, f ∈ facets)
    {items : List Data} (hspells : SpellsItems goal fs items) {position : Nat}
    (hagrees : Agrees facets goal a ((fs.take items.length).map (·.name))) :
    l.readItems position fields items a = .ok goal := by
  induction hfields generalizing items a position with
  | nil =>
    obtain rfl : items = [] := hspells
    rw [Layout.readItems, if_pos rfl, h.eq_of_agrees hagrees]
  | @cons field f fields fs hfield _ ih =>
    obtain ⟨hf, hrest⟩ := List.forall_mem_cons.1 hsub
    cases items with
    | nil =>
      obtain ⟨homissible, hspells⟩ := hspells
      have hoptional : field.required = false := by
        rw [hfield.required, homissible, Option.isNone_some]
      rw [Layout.readItems, hoptional]
      exact ih hrest hspells hagrees
    | cons d items =>
      obtain ⟨hwrites, hspells⟩ := hspells
      obtain ⟨b, hread, hb⟩ := h.exists_read hf hfield hwrites hagrees
      rw [Layout.readItems, hread]
      exact ih hrest hspells hb

/-- What a list does not come to may be left out. -/
theorem omissible_of_spellsItems {fs : List (Facet α)} {items : List Data}
    (hspells : SpellsItems goal fs items) {f : Facet α} (hf : f ∈ fs)
    (hnot : f.name ∉ (fs.take items.length).map (·.name)) : f.Omissible goal := by
  induction fs generalizing items with
  | nil => cases hf
  | cons first fs ih =>
    cases items with
    | nil =>
      rcases List.mem_cons.1 hf with rfl | hf
      · exact hspells.1
      · exact ih hspells.2 hf (by simp)
    | cons d items =>
      rw [List.length_cons, List.take_succ_cons, List.map_cons, List.mem_cons,
        not_or] at hnot
      rcases List.mem_cons.1 hf with rfl | hf
      · exact absurd rfl hnot.1
      · exact ih hspells.2 hf hnot.2

/-- **Every spelling decodes** to the record that it spells. -/
theorem decodes (h : l.Reads facets) : Decodes (Spelling facets) l.decode := by
  intro goal d hd
  cases hd with
  | map given omitted =>
    rw [Layout.decode, h.readEntries_eq given (h.agrees_blank omitted),
      h.missing?_eq_none omitted]
    rfl
  | list given =>
    exact h.readItems_eq h.fields (fun _ hf => hf) given
      (h.agrees_blank fun _ hf => omissible_of_spellsItems given hf)

end Layout.Reads

/-! ## Encoded records are spellings -/

/-- A list that is written member by member. -/
theorem ListOf.map {β : Type} {Spells : β → Data → Prop} {encode : β → Data}
    (h : ∀ b, Spells b (encode b)) (bs : List β) :
    ListOf Spells bs (.list (bs.map encode)) := by
  refine ⟨_, rfl, ?_⟩
  rw [List.forall₂_map_right_iff]
  exact List.forall₂_same.2 fun b _ => h b

/-- **A map of all fields spells a record**, if each entry writes the value of its
field. -/
theorem Spelling.ofFields {facets : List (Facet α)} {a : α} {fields : List (String × Data)}
    (hdistinct : (facets.map (·.name)).Nodup)
    (h : List.Forall₂ (fun f field => field.1 = f.name ∧ f.Writes a field.2) facets fields) :
    Spelling facets a (.ofFields fields) := by
  have hnames : facets.map (·.name) = fields.map (·.1) := by
    rw [← List.forall₂_eq_eq_eq, List.forall₂_map_left_iff, List.forall₂_map_right_iff]
    exact h.imp fun _ _ hfield => hfield.1.symm
  have hperm : (Entries.ofList fields).Perm fields :=
    Entries.perm_ofList (List.pairwise_map.1 (hnames ▸ hdistinct))
  refine .map (fun f hf d hmem => ?_) fun f hf hnot => ?_
  · obtain ⟨g, hg, hname, hwrites⟩ := exists_mem_of_forall₂ h.flip (hperm.mem_iff.1 hmem)
    obtain rfl := List.inj_on_of_nodup_map hdistinct hf hg hname
    exact hwrites
  · refine absurd ?_ hnot
    rw [(hperm.map _).mem_iff, ← hnames]
    exact List.mem_map_of_mem hf

end TypeAtlas
