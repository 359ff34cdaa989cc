/-!
# Kinds and modifiers

The two fixed vocabularies of a type record. Each lists its members in the order in
which they are shown, with the word that documents use for them.
-/

namespace TypeAtlas

/-- **The kind of a type.** -/
inductive TypeKind where
  /-- A class, enumerations included. -/
  | standard
  /-- An interface, which classes implement. -/
  | interface
  /-- A tag, which is attached to declarations. -/
  | tag
  deriving DecidableEq

namespace TypeKind

/-- The kinds in their order. -/
def all : List TypeKind := [standard, interface, tag]

/-- The place of a kind in their order. -/
def rank (k : TypeKind) : Nat := all.idxOf k

/-- The word for a kind. -/
def word : TypeKind → String
  | standard => "standard"
  | interface => "interface"
  | tag => "tag"

@[simp] theorem mem_all (k : TypeKind) : k ∈ all := by cases k <;> decide

theorem getElem?_rank (k : TypeKind) : all[k.rank]? = some k := by cases k <;> rfl

theorem rank_injective {k l : TypeKind} (h : k.rank = l.rank) : k = l :=
  Option.some.inj ((getElem?_rank k).symm.trans (h ▸ getElem?_rank l))

theorem word_injective {k l : TypeKind} (h : k.word = l.word) : k = l := by
  cases k <;> cases l <;> first | rfl | exact absurd h (by decide)

end TypeKind

/-- **A modifier of a declaration.** -/
inductive Modifier where
  /-- Visible everywhere. -/
  | «public»
  /-- Visible in the package and in subclasses. -/
  | «protected»
  /-- Visible in the declaring type only. -/
  | «private»
  /-- Without an implementation. -/
  | «abstract»
  /-- Belonging to the type and not to its objects. -/
  | «static»
  /-- Not to be changed or extended. -/
  | «final»
  /-- Left out when an object is stored. -/
  | «transient»
  /-- Read from memory each time. -/
  | «volatile»
  /-- Entered by one thread at a time. -/
  | «synchronized»
  /-- Implemented outside the language. -/
  | «native»
  /-- Computing with strict floating point. -/
  | «strictfp»
  /-- An implementation given by an interface. -/
  | «default»
  /-- Not in the source text. -/
  | «synthetic»
  deriving DecidableEq

namespace Modifier

/-- The modifiers in the order in which they are shown. -/
def all : List Modifier :=
  [«public», «protected», «private», «abstract», «static», «final», «transient»,
   «volatile», «synchronized», «native», «strictfp», «default», «synthetic»]

/-- The word for a modifier. -/
def word : Modifier → String
  | «public» => "public"
  | «protected» => "protected"
  | «private» => "private"
  | «abstract» => "abstract"
  | «static» => "static"
  | «final» => "final"
  | «transient» => "transient"
  | «volatile» => "volatile"
  | «synchronized» => "synchronized"
  | «native» => "native"
  | «strictfp» => "strictfp"
  | «default» => "default"
  | «synthetic» => "synthetic"

@[simp] theorem mem_all (m : Modifier) : m ∈ all := by cases m <;> decide

theorem word_injective {m n : Modifier} (h : m.word = n.word) : m = n := by
  cases m <;> cases n <;> first | rfl | exact absurd h (by decide)

/-- **How a set of modifiers is shown**: each once, in their order, between spaces. -/
def display (modifiers : List Modifier) : String :=
  " ".intercalate ((all.filter (· ∈ modifiers)).map word)

end Modifier

end TypeAtlas
