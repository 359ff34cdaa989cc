import Mathlib.Data.List.Forall2
import Mathlib.Data.List.TakeWhile
import TypeAtlas.Command.Invocation

/-!
# What command lines ask for

A command line is a row of words. Which words there are, and what each of them stands for, is said
here word by word: the words for kinds and for questions, with what a graph is asked for each of
them (`ListingWord`, `QueryWord`), and the flags, settings and operands that may stand before the
verb and after each verb (`Grammar`). `Gives` says which words give which of them, if they are
spelled in full. Flags, settings and operands may come in any order, a value stands behind an
equals sign or is the next word, and nothing is given twice.

`gather` sorts the words of a command line by how they look, and looks them up. Words that are
gathered one by one come to what they give (`gather_of_gives`), since it knows the words of the
grammar (`Grammar.Fits`). So a command line is parsed to what it asks for (`parse_of_spells`), in
whatever order its words stand.
-/

namespace TypeAtlas

/-! ## Words in full -/

/-- A name is found by its word among others, if no two of them have the same word. -/
theorem find?_word {α : Type} {word : α → String} (hword : ∀ a b, word a = word b → a = b)
    {a : α} {xs : List α} (h : a ∈ xs) : xs.find? (fun b => word b = word a) = some a := by
  induction xs with
  | nil => cases h
  | cons b xs ih =>
    by_cases hb : word b = word a
    · rw [List.find?_cons_of_pos (by simpa using hb), hword b a hb]
    · rw [List.find?_cons_of_neg (by simpa using hb)]
      exact ih ((List.mem_cons.1 h).resolve_left fun hab => hb (hab ▸ rfl))

theorem Verb.ofWord?_word (verb : Verb) : ofWord? verb.word = some verb := by
  cases verb <;> decide

theorem Flag.word_injective (f g : Flag) (h : f.word = g.word) : f = g := by
  revert h
  cases f <;> cases g <;> decide

theorem Setting.word_injective (s t : Setting) (h : s.word = t.word) : s = t := by
  revert h
  cases s <;> cases t <;> decide

theorem Flag.word_ne_word (f : Flag) (s : Setting) : f.word ≠ s.word := by
  cases f <;> cases s <;> decide

/-- **A text that may follow two hyphens**: it is not empty, and has no equals sign. -/
structure IsWord (word : String) : Prop where
  /-- There is something in it. -/
  ne_nil : word.toList ≠ []
  /-- Nothing in it is an equals sign. -/
  passes : ∀ c ∈ word.toList, decide (c ≠ '=') = true

theorem Flag.isWord (f : Flag) : IsWord f.word := by
  cases f <;> exact ⟨by decide, List.all_eq_true.1 (by decide)⟩

theorem Setting.isWord (s : Setting) : IsWord s.word := by
  cases s <;> exact ⟨by decide, List.all_eq_true.1 (by decide)⟩

theorem IsWord.takeWhile {word : String} (h : IsWord word) :
    word.toList.takeWhile (· ≠ '=') = word.toList :=
  List.takeWhile_eq_self_iff.2 h.passes

theorem IsWord.dropWhile {word : String} (h : IsWord word) :
    word.toList.dropWhile (· ≠ '=') = [] :=
  List.dropWhile_eq_nil_iff.2 h.passes

/-- No verb has a hyphen in front. -/
theorem Verb.ofWord?_of_hyphen {word : String} (h : word.toList.head? = some '-') :
    ofWord? word = none := by
  have hverbs : ∀ verb : Verb, verb.word.toList.head? ≠ some '-' := by
    intro verb
    cases verb <;> decide
  refine List.find?_eq_none.2 fun verb _ hverb => hverbs verb ?_
  rw [of_decide_eq_true hverb, h]

/-! ## Words for kinds and questions -/

/-- **The words for kinds of types**, and what is listed for each. -/
inductive ListingWord : String → Option TypeKind → (TypeGraph → List String) → Prop
  /-- All types. -/
  | all : ListingWord "all" none fun g => g.allNames
  /-- Classes. -/
  | standard : ListingWord "standard" (some .standard) fun g => g.namesOfKind .standard
  /-- Interfaces. -/
  | interface : ListingWord "interface" (some .interface) fun g => g.namesOfKind .interface
  /-- Tags. -/
  | tag : ListingWord "tag" (some .tag) fun g => g.namesOfKind .tag

/-- **The words for questions**, and the query that answers each. -/
inductive QueryWord : String → Question → (TypeGraph → String → List String) → Prop
  /-- The classes below a class. -/
  | subclasses : QueryWord "subclasses" .subclasses fun g => g.closure .extendsClass .incoming
  /-- The classes above it. -/
  | superclasses : QueryWord "superclasses" .superclasses fun g => g.closure .extendsClass .outgoing
  /-- The interfaces below an interface. -/
  | subinterfaces :
    QueryWord "subinterfaces" .subinterfaces fun g => g.closure .extendsInterface .incoming
  /-- The interfaces above it. -/
  | superinterfaces :
    QueryWord "superinterfaces" .superinterfaces fun g => g.closure .extendsInterface .outgoing
  /-- The classes that implement an interface. -/
  | implementing : QueryWord "implementing" .implementing fun g => g.implementing
  /-- The types that carry a tag. -/
  | withTag : QueryWord "with-tag" .withTag fun g => g.withTag
  /-- The tags on a type. -/
  | tagsOn : QueryWord "tags-on" .tagsOn fun g => g.tagsOn
  /-- The tags on a tag. -/
  | metaTagsOn : QueryWord "meta-tags-on" .metaTagsOn fun g => g.closure .metaTaggedBy .outgoing
  /-- The tags that carry a tag. -/
  | withMetaTag : QueryWord "with-meta-tag" .withMetaTag fun g => g.closure .metaTaggedBy .incoming
  /-- The types that have a routine with a tag. -/
  | withRoutineTag : QueryWord "with-routine-tag" .withRoutineTag fun g => g.withRoutineTag
  /-- The types that have an attribute with a tag. -/
  | withAttributeTag : QueryWord "with-attribute-tag" .withAttributeTag fun g => g.withAttributeTag

theorem ListingWord.choiceOfWord?_eq {word : String} {kind : Option TypeKind}
    {listing : TypeGraph → List String} (h : ListingWord word kind listing) :
    TypeKind.choiceOfWord? word = some kind := by
  cases h <;> decide

theorem QueryWord.ofWord?_eq {word : String} {question : Question}
    {query : TypeGraph → String → List String} (h : QueryWord word question query) :
    Question.ofWord? word = some question := by
  cases h <;> decide

/-- There is a word for every kind, and one for all kinds. -/
theorem ListingWord.exists_word (kind : Option TypeKind) :
    ∃ word listing, ListingWord word kind listing := by
  rcases kind with _ | _ | _ | _
  · exact ⟨_, _, .all⟩
  · exact ⟨_, _, .standard⟩
  · exact ⟨_, _, .interface⟩
  · exact ⟨_, _, .tag⟩

/-- There is a word for every question. -/
theorem QueryWord.exists_word (question : Question) :
    ∃ word query, QueryWord word question query := by
  cases question <;> exact ⟨_, _, by constructor⟩

/-! ## What words give -/

/-- **What may be given** at a place of a command line. -/
structure Grammar where
  /-- The flags. -/
  flags : List String
  /-- The settings, and which values each may have. -/
  settings : List (String × (String → Prop))
  /-- The operands in order, and which words each may be. -/
  operands : List (String → Prop)

/-- **What has been given.** -/
structure Given where
  /-- The flags. -/
  flags : List String := []
  /-- The settings and their values. -/
  settings : List (String × String) := []
  /-- The operands in order. -/
  operands : List String := []

/-- Whether a flag has been given. -/
def Given.has (g : Given) (flag : String) : Bool := flag ∈ g.flags

/-- The value that has been given to a setting. -/
def Given.value? (g : Given) (setting : String) : Option String :=
  (g.settings.find? fun given => given.1 = setting).map (·.2)

/-- **A word that is no flag and no setting**: it has no hyphen in front, or is nothing else. -/
def IsPlain (word : String) : Prop := word.toList.head? = some '-' → word = "-"

/-- **Words give flags, settings and operands**: those that were there before, and one more for
each word or, where the value of a setting is a word of its own, for two words. -/
inductive Gives (grammar : Grammar) : Given → List String → Given → Prop
  /-- No words give nothing. -/
  | done {g : Given} : Gives grammar g [] g
  /-- A flag is a word. -/
  | flag {g g' : Given} {flag : String} {words : List String}
    (hflag : flag ∈ grammar.flags) (hnew : g.has flag = false)
    (hrest : Gives grammar { g with flags := flag :: g.flags } words g') :
    Gives grammar g (flag :: words) g'
  /-- A setting is a word, and its value stands behind an equals sign. -/
  | joined {g g' : Given} {setting value : String} {accepts : String → Prop}
    {words : List String}
    (hsetting : (setting, accepts) ∈ grammar.settings) (hnew : g.value? setting = none)
    (hvalue : accepts value)
    (hrest : Gives grammar { g with settings := (setting, value) :: g.settings } words g') :
    Gives grammar g ((setting ++ "=" ++ value) :: words) g'
  /-- Or its value is the next word, which has no hyphen in front. -/
  | apart {g g' : Given} {setting value : String} {accepts : String → Prop}
    {words : List String}
    (hsetting : (setting, accepts) ∈ grammar.settings) (hnew : g.value? setting = none)
    (hvalue : accepts value) (hplain : IsPlain value)
    (hrest : Gives grammar { g with settings := (setting, value) :: g.settings } words g') :
    Gives grammar g (setting :: value :: words) g'
  /-- Any other word is the next operand. -/
  | operand {g g' : Given} {word : String} {accepts : String → Prop} {words : List String}
    (hoperand : grammar.operands[g.operands.length]? = some accepts)
    (hword : accepts word) (hplain : IsPlain word)
    (hrest : Gives grammar { g with operands := g.operands ++ [word] } words g') :
    Gives grammar g (word :: words) g'

/-! ### Before and after the verb -/

namespace Grammar

/-- The flags that go with every verb. -/
def sharedFlags : List String := ["--verbose", "--quiet", "--include-external"]

/-- The setting that goes with every verb. -/
def config : String × (String → Prop) := ("--config", fun path => path ≠ "")

/-- Before the verb. -/
def top : Grammar := ⟨sharedFlags, [config], []⟩

/-- After the verb for listings. -/
def list : Grammar where
  flags := "--json" :: sharedFlags
  settings := [("--kind", fun word => ∃ kind listing, ListingWord word kind listing), config]
  operands := [fun path => path ≠ ""]

/-- After the verb for questions. -/
def query : Grammar where
  flags := "--json" :: sharedFlags
  settings := [config]
  operands := [fun path => path ≠ "", fun word => ∃ question query, QueryWord word question query,
    fun _ => True]

/-- After the verb for places. -/
def origins : Grammar where
  flags := "--json" :: sharedFlags
  settings := [config]
  operands := [fun path => path ≠ "", fun _ => True]

/-- After the verb for diagrams. -/
def dot : Grammar where
  flags := "--no-attributes" :: "--no-routines" :: sharedFlags
  settings := [("--width", fun text => (measure? text).isSome),
    ("--height", fun text => (measure? text).isSome), ("--output", fun path => path ≠ ""), config]
  operands := [fun path => path ≠ ""]

/-- **A grammar fits a level**: row by row, it has what the level has, and accepts no more. -/
structure Fits (grammar : Grammar) (level : Level) : Prop where
  /-- The flags are the same. -/
  flags : grammar.flags = level.flags.map fun flag => "--" ++ flag.word
  /-- The settings are the same, and have the values that the grammar says. -/
  settings : List.Forall₂ (fun entry setting => "--" ++ setting.word = entry.1
    ∧ ∀ value, entry.2 value → setting.accepts value = true) grammar.settings level.settings
  /-- The operands are the words that the grammar says. -/
  operands : List.Forall₂ (fun accepts operand =>
    ∀ word, accepts word → operand.accepts word = true) grammar.operands level.operands
  /-- Before a verb there are no operands. -/
  eq_nil : level.beforeVerb = true → grammar.operands = []

/-- The setting that goes with every verb is known. -/
theorem fits_config : "--" ++ Setting.config.word = config.1
    ∧ ∀ value, config.2 value → Setting.config.accepts value = true :=
  ⟨rfl, fun path (h : path ≠ "") => decide_eq_true h⟩

/-- The path of the records is an operand. -/
theorem fits_records (path : String) (h : path ≠ "") : Operand.records.accepts path = true :=
  decide_eq_true h

theorem fits_top : top.Fits .top where
  flags := rfl
  settings := .cons fits_config .nil
  operands := .nil
  eq_nil _ := rfl

theorem fits_list : list.Fits (.ofVerb .list) where
  flags := rfl
  settings := by
    refine .cons ⟨rfl, ?_⟩ (.cons fits_config .nil)
    rintro word ⟨kind, listing, hword⟩
    rw [Setting.accepts, hword.choiceOfWord?_eq]
    rfl
  operands := .cons fits_records .nil
  eq_nil := nofun

theorem fits_query : query.Fits (.ofVerb .query) where
  flags := rfl
  settings := .cons fits_config .nil
  operands := by
    refine .cons fits_records (.cons ?_ (.cons (fun _ _ => rfl) .nil))
    rintro word ⟨question, query, hword⟩
    rw [Operand.accepts, hword.ofWord?_eq]
    rfl
  eq_nil := nofun

theorem fits_origins : origins.Fits (.ofVerb .origins) where
  flags := rfl
  settings := .cons fits_config .nil
  operands := .cons fits_records (.cons (fun _ _ => rfl) .nil)
  eq_nil := nofun

theorem fits_dot : dot.Fits (.ofVerb .dot) where
  flags := rfl
  settings := .cons ⟨rfl, fun _ => id⟩ (.cons ⟨rfl, fun _ => id⟩
    (.cons ⟨rfl, fun _ => decide_eq_true⟩ (.cons fits_config .nil)))
  operands := .cons fits_records .nil
  eq_nil := nofun

end Grammar

/-! ### Words that are gathered -/

/-- **What has been given by what has been gathered**, in full words. -/
def Gathered.given (g : Gathered) : Given where
  flags := g.flags.map fun flag => "--" ++ flag.word
  settings := g.settings.map fun setting => ("--" ++ setting.1.word, setting.2)
  operands := g.operands

theorem Gathered.has_given (g : Gathered) (flag : Flag) :
    g.given.has ("--" ++ flag.word) = g.has flag := by
  have hmem : "--" ++ flag.word ∈ g.given.flags ↔ flag ∈ g.flags := by
    rw [given, List.mem_map]
    constructor
    · rintro ⟨other, hother, hword⟩
      rwa [← other.word_injective flag ((String.append_right_inj "--").1 hword)]
    · exact fun hflag => ⟨flag, hflag, rfl⟩
  exact decide_eq_decide.2 hmem

theorem Gathered.value?_given (g : Gathered) (setting : Setting) :
    g.given.value? ("--" ++ setting.word) = g.value? setting := by
  have hsame : ∀ other : Setting × String,
      decide ("--" ++ other.1.word = "--" ++ setting.word) = decide (other.1 = setting) :=
    fun other => decide_eq_decide.2
      ⟨fun hword => other.1.word_injective setting ((String.append_right_inj "--").1 hword),
        fun heq => heq ▸ rfl⟩
  rw [Given.value?, value?, given, List.find?_map, Option.map_map]
  simp only [Function.comp_def, hsame]

theorem isDashed_of_isPlain {word : String} (h : IsPlain word) : isDashed word = false := by
  unfold isDashed
  split
  · next c cs hchars =>
    have hword := h (by rw [hchars]; rfl)
    rw [hword] at hchars
    cases hchars
  · rfl

/-- Of two lists that correspond one by one, what is at a place of the one has its counterpart
there in the other. -/
theorem exists_getElem?_of_forall₂ {α β : Type*} {R : α → β → Prop} {xs : List α} {ys : List β}
    (h : List.Forall₂ R xs ys) {k : Nat} {x : α} (hx : xs[k]? = some x) :
    ∃ y, ys[k]? = some y ∧ R x y := by
  induction h generalizing k with
  | nil => cases hx
  | @cons a b xs ys hfirst _ ih =>
    cases k with
    | zero => exact ⟨b, rfl, Option.some.inj hx ▸ hfirst⟩
    | succ k => exact ih hx

section Gather

variable {level : Level} {g : Gathered}

theorem addLong_flag {flag : Flag} (hlevel : flag ∈ level.flags) (hnew : g.has flag = false) :
    g.addLong level flag.word.toList = .ok ({ g with flags := flag :: g.flags }, none) := by
  rw [Gathered.addLong, flag.isWord.takeWhile, flag.isWord.dropWhile, String.ofList_toList,
    find?_word Flag.word_injective hlevel]
  simp [Gathered.addFlag, hnew, Functor.map, Except.map]

/-- No flag is found by the word for a setting. -/
theorem find?_flag_word (setting : Setting) (flags : List Flag) :
    flags.find? (fun flag => flag.word = setting.word) = none :=
  List.find?_eq_none.2 fun flag _ h => flag.word_ne_word setting (of_decide_eq_true h)

theorem addLong_apart {setting : Setting} (hlevel : setting ∈ level.settings) :
    g.addLong level setting.word.toList = .ok (g, some setting) := by
  rw [Gathered.addLong, setting.isWord.takeWhile, setting.isWord.dropWhile,
    String.ofList_toList, find?_flag_word, find?_word Setting.word_injective hlevel]

theorem addSetting_eq {setting : Setting} {value : String} (hnew : g.value? setting = none)
    (hvalue : setting.accepts value = true) :
    g.addSetting setting value = .ok { g with settings := (setting, value) :: g.settings } := by
  simp [Gathered.addSetting, hnew, hvalue]

theorem addLong_joined {setting : Setting} {value : String} (hlevel : setting ∈ level.settings)
    (hnew : g.value? setting = none) (hvalue : setting.accepts value = true) :
    g.addLong level (setting.word.toList ++ '=' :: value.toList)
      = .ok ({ g with settings := (setting, value) :: g.settings }, none) := by
  have htake : (setting.word.toList ++ '=' :: value.toList).takeWhile (· ≠ '=')
      = setting.word.toList := by
    rw [List.takeWhile_append_of_pos setting.isWord.passes]
    simp
  have hdrop : (setting.word.toList ++ '=' :: value.toList).dropWhile (· ≠ '=')
      = '=' :: value.toList := by
    rw [List.dropWhile_append_of_pos setting.isWord.passes]
    simp
  rw [Gathered.addLong, htake, hdrop, String.ofList_toList, find?_flag_word,
    find?_word Setting.word_injective hlevel]
  simp [addSetting_eq hnew hvalue, Functor.map, Except.map]

/-- A word with two hyphens and more is looked up by what follows them. -/
theorem gather_long {word : String} {cs : List Char} {added : Gathered}
    {waiting : Option Setting} (hword : word.toList = '-' :: '-' :: cs) (hne : cs ≠ [])
    (hadd : g.addLong level cs = .ok (added, waiting)) (rest : List String) :
    gather level .any g (word :: rest) = gather level (.after waiting) added rest := by
  have hhead : word.toList.head? = some '-' := by rw [hword, List.head?_cons]
  have hverb : Verb.ofWord? word = none := Verb.ofWord?_of_hyphen hhead
  have hhelp : word ≠ "help" := by
    rintro rfl
    exact absurd hhead (by decide)
  have hhyphens : word ≠ "--" := by
    rintro rfl
    exact hne (List.cons.inj (List.cons.inj hword).2).2.symm
  rw [gather, hverb]
  simp [hhelp, hhyphens, hword, hadd]

/-- A word without a hyphen in front is an operand, if no verb is expected. -/
theorem gather_operand {word : String} {operand : Operand} (hverb : level.beforeVerb = false)
    (hlevel : level.operands[g.operands.length]? = some operand)
    (hword : operand.accepts word = true) (hplain : isDashed word = false)
    (rest : List String) :
    gather level .any g (word :: rest)
      = gather level .any { g with operands := g.operands ++ [word] } rest := by
  have hhyphens : word ≠ "--" := by
    rintro rfl
    exact absurd hplain (by decide)
  have hadd : g.addOperand level word = .ok { g with operands := g.operands ++ [word] } := by
    rw [Gathered.addOperand, hlevel]
    simp [hword]
  -- with two characters or more, the first of them is no hyphen
  have hhead : ∀ {c d cs}, word.toList = c :: d :: cs → c ≠ '-' := by
    rintro c d cs hchars rfl
    simp [isDashed, hchars] at hplain
  rw [gather, hverb]
  simp only [Bool.false_and, Bool.false_eq_true, if_false, hhyphens]
  rcases hchars : word.toList with _ | ⟨c, _ | ⟨d, cs⟩⟩
  · simp [hadd, Functor.map, Except.map, Mode.after]
  · simp [hadd, Functor.map, Except.map, Mode.after]
  · simp [hadd, hhead hchars, Functor.map, Except.map, Mode.after]

/-- **Words that give something are gathered to it**, and then the words after them. -/
theorem gather_of_gives {grammar : Grammar} (hfits : grammar.Fits level) {given given' : Given}
    {words : List String} (h : Gives grammar given words given') {g : Gathered}
    (hg : g.given = given) (rest : List String) :
    ∃ g' : Gathered, g'.given = given'
      ∧ gather level .any g (words ++ rest) = gather level .any g' rest := by
  -- a setting of the grammar is one of the level, with the same word
  have hsettings : ∀ {word accepts}, (word, accepts) ∈ grammar.settings →
      ∃ setting ∈ level.settings, "--" ++ setting.word = word
        ∧ ∀ value, accepts value → setting.accepts value = true := by
    intro word accepts hmem
    obtain ⟨k, hk⟩ := List.mem_iff_getElem?.1 hmem
    obtain ⟨setting, hsetting, hsame⟩ := exists_getElem?_of_forall₂ hfits.settings hk
    exact ⟨setting, List.mem_iff_getElem?.2 ⟨k, hsetting⟩, hsame⟩
  induction h generalizing g with
  | done => exact ⟨g, hg, rfl⟩
  | @flag _ given' flag words hflag hnew _ ih =>
    subst hg
    obtain ⟨flag, hlevel, rfl⟩ := List.mem_map.1 (hfits.flags ▸ hflag)
    rw [g.has_given] at hnew
    obtain ⟨g', hg', hgather⟩ := @ih { g with flags := flag :: g.flags } rfl
    refine ⟨g', hg', ?_⟩
    rw [List.cons_append, gather_long (by rw [String.toList_append]; rfl) flag.isWord.ne_nil
      (addLong_flag hlevel hnew)]
    exact hgather
  | @joined _ given' word value accepts words hsetting hnew hvalue _ ih =>
    subst hg
    obtain ⟨setting, hlevel, rfl, haccepts⟩ := hsettings hsetting
    rw [g.value?_given] at hnew
    obtain ⟨g', hg', hgather⟩ := @ih { g with settings := (setting, value) :: g.settings } rfl
    refine ⟨g', hg', ?_⟩
    rw [List.cons_append, gather_long (by simp [String.toList_append]) (by simp)
      (addLong_joined hlevel hnew (haccepts value hvalue))]
    exact hgather
  | @apart _ given' word value accepts words hsetting hnew hvalue hplain _ ih =>
    subst hg
    obtain ⟨setting, hlevel, rfl, haccepts⟩ := hsettings hsetting
    rw [g.value?_given] at hnew
    obtain ⟨g', hg', hgather⟩ := @ih { g with settings := (setting, value) :: g.settings } rfl
    refine ⟨g', hg', ?_⟩
    rw [List.cons_append, gather_long (by rw [String.toList_append]; rfl) setting.isWord.ne_nil
      (addLong_apart hlevel), List.cons_append, Mode.after, gather, isDashed_of_isPlain hplain,
      addSetting_eq hnew (haccepts value hvalue)]
    exact hgather
  | @operand _ given' word accepts words hoperand hword hplain _ ih =>
    subst hg
    obtain ⟨operand, hlevel, haccepts⟩ := exists_getElem?_of_forall₂ hfits.operands hoperand
    have hverb : level.beforeVerb = false := by
      rw [← Bool.not_eq_true]
      intro htop
      rw [hfits.eq_nil htop] at hoperand
      cases hoperand
    obtain ⟨g', hg', hgather⟩ := @ih { g with operands := g.operands ++ [word] } rfl
    refine ⟨g', hg', ?_⟩
    rw [List.cons_append, gather_operand hverb hlevel (haccepts word hword)
      (isDashed_of_isPlain hplain)]
    exact hgather

end Gather

/-! ## Command lines -/

/-- **What is given after a verb asks for a task**, on the records of a path. -/
inductive GivesTask : String → Grammar → Given → String → Task → Prop
  /-- A list of names, of one kind or of all. -/
  | list {after : Given} {records : String} {kind : Option TypeKind}
    {listing : TypeGraph → List String} (hoperands : after.operands = [records])
    (hkind : ListingWord ((after.value? "--kind").getD "all") kind listing) :
    GivesTask "list" .list after records (.list kind (after.has "--json"))
  /-- The answer to the question that a word stands for. -/
  | query {after : Given} {records word name : String} {question : Question}
    {query : TypeGraph → String → List String}
    (hoperands : after.operands = [records, word, name]) (hword : QueryWord word question query) :
    GivesTask "query" .query after records (.query question name (after.has "--json"))
  /-- The places that a type was loaded from. -/
  | origins {after : Given} {records name : String} (hoperands : after.operands = [records, name]) :
    GivesTask "origins" .origins after records (.origins name (after.has "--json"))
  /-- A diagram, with what is to be changed in its settings. -/
  | dot {after : Given} {records : String} (hoperands : after.operands = [records]) :
    GivesTask "dot" .dot after records
      (.dot ((after.value? "--width").bind measure?) ((after.value? "--height").bind measure?)
        (after.has "--no-attributes") (after.has "--no-routines") (after.value? "--output"))

/-- **A command line asks for something**: words before the verb give flags and settings,
words after it give more of them and the operands. -/
inductive Spells : List String → Invocation → Prop
  /-- A verb, with the words before it and after it. -/
  | line {grammar : Grammar} {before after : Given} {words rest : List String}
    {verb records : String} {task : Task}
    (hbefore : Gives .top {} words before) (hafter : Gives grammar {} rest after)
    (htask : GivesTask verb grammar after records task) :
    Spells (words ++ verb :: rest) {
      config := (after.value? "--config").or (before.value? "--config")
      includeExternal := before.has "--include-external" || after.has "--include-external"
      records
      task }

/-- **The task of a verb** is the one that is asked for. -/
theorem GivesTask.exists_verb {word records : String} {grammar : Grammar} {after : Given}
    {task : Task} (h : GivesTask word grammar after records task) :
    ∃ verb : Verb, verb.word = word ∧ grammar.Fits (.ofVerb verb) ∧ ∀ g : Gathered,
      g.given = after → Invocation.taskOf? verb g = some (records, task) := by
  have hjson : ∀ g : Gathered, g.given.has "--json" = g.has .json := fun g => g.has_given .json
  cases h with
  | @list _ _ kind listing hoperands hkind =>
    refine ⟨.list, rfl, Grammar.fits_list, ?_⟩
    rintro g rfl
    have hvalue : g.given.value? "--kind" = g.value? .kind := g.value?_given .kind
    -- without the setting, all types are listed
    have hchoice : ((g.value? .kind).bind TypeKind.choiceOfWord?).getD none = kind := by
      rw [hvalue] at hkind
      have hword := hkind.choiceOfWord?_eq
      cases hgiven : g.value? .kind with
      | none =>
        rw [hgiven] at hword
        exact Option.some.inj hword
      | some word =>
        rw [hgiven] at hword
        rw [Option.bind_some, show TypeKind.choiceOfWord? word = some kind from hword]
        rfl
    have hgathered : g.operands = _ := hoperands
    simp only [Invocation.taskOf?, hgathered, hchoice, hjson]
  | query hoperands hword =>
    refine ⟨.query, rfl, Grammar.fits_query, ?_⟩
    rintro g rfl
    have hgathered : g.operands = _ := hoperands
    simp only [Invocation.taskOf?, hgathered, hword.ofWord?_eq, Option.map_some, hjson]
  | origins hoperands =>
    refine ⟨.origins, rfl, Grammar.fits_origins, ?_⟩
    rintro g rfl
    have hgathered : g.operands = _ := hoperands
    simp only [Invocation.taskOf?, hgathered, hjson]
  | dot hoperands =>
    refine ⟨.dot, rfl, Grammar.fits_dot, ?_⟩
    rintro g rfl
    have hwidth : g.given.value? "--width" = g.value? .width := g.value?_given .width
    have hheight : g.given.value? "--height" = g.value? .height := g.value?_given .height
    have houtput : g.given.value? "--output" = g.value? .output := g.value?_given .output
    have hattributes : g.given.has "--no-attributes" = g.has .noAttributes :=
      g.has_given .noAttributes
    have hroutines : g.given.has "--no-routines" = g.has .noRoutines := g.has_given .noRoutines
    have hgathered : g.operands = _ := hoperands
    simp only [Invocation.taskOf?, hgathered, hwidth, hheight, houtput, hattributes, hroutines]

/-- **A command line is parsed to what it asks for.** -/
theorem parse_of_spells {words : List String} {i : Invocation} (h : Spells words i) :
    Invocation.parse words = .ok i := by
  obtain ⟨hbefore, hafter, htask⟩ := h
  obtain ⟨verb, rfl, hfits, htaskOf⟩ := htask.exists_verb
  obtain ⟨top, rfl, htop⟩ := gather_of_gives Grammar.fits_top hbefore (g := {}) rfl _
  obtain ⟨below, rfl, hbelow⟩ := gather_of_gives hfits hafter (g := {}) rfl []
  have hconfig : ∀ g : Gathered, g.given.value? "--config" = g.value? .config :=
    fun g => g.value?_given .config
  have hexternal : ∀ g : Gathered, g.given.has "--include-external" = g.has .includeExternal :=
    fun g => g.has_given .includeExternal
  have hverb : ∀ rest, gather .top .any top (verb.word :: rest) = .ok (top, some (verb, rest)) := by
    intro rest
    rw [gather, Verb.ofWord?_word]
    rfl
  have hend : gather (.ofVerb verb) .any below [] = .ok (below, none) := rfl
  rw [List.append_nil, hend] at hbelow
  rw [Invocation.parse, htop, hverb]
  simp only [bind, Except.bind, hbelow, htaskOf below rfl, hconfig, hexternal]

end TypeAtlas
