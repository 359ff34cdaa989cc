import TypeAtlas.Graph.Listing
import TypeAtlas.Number.Reading

/-!
# The words of the command line

A command line names one verb, with operands, flags and settings. A flag is given or
not; a setting has a value. Some flags and settings go with every verb and may stand
before it; the others go with one.
-/

namespace TypeAtlas

/-- **A verb.** -/
inductive Verb where
  /-- List the names of the known types. -/
  | list
  /-- Answer a question about a type. -/
  | query
  /-- Say where a type was loaded from. -/
  | origins
  /-- Draw the diagram. -/
  | dot
  deriving DecidableEq

/-- **A flag.** -/
inductive Flag where
  /-- Log more. -/
  | verbose
  /-- Log less. -/
  | quiet
  /-- Show external types. -/
  | includeExternal
  /-- Write a JSON document. -/
  | json
  /-- Leave the attributes out of labels. -/
  | noAttributes
  /-- Leave the routines out of labels. -/
  | noRoutines
  deriving DecidableEq

/-- **A setting.** -/
inductive Setting where
  /-- The path of the configuration file. -/
  | config
  /-- The kind of the types to list. -/
  | kind
  /-- The width of the canvas. -/
  | width
  /-- The height of the canvas. -/
  | height
  /-- The path of the file to write the diagram to. -/
  | output
  deriving DecidableEq

/-- **An operand**, by what it means. -/
inductive Operand where
  /-- The path of the file with the records. -/
  | records
  /-- The word for a question. -/
  | question
  /-- The name of a type. -/
  | name
  deriving DecidableEq

/-- The word for a question. -/
def Question.word : Question → String
  | subclasses => "subclasses"
  | superclasses => "superclasses"
  | subinterfaces => "subinterfaces"
  | superinterfaces => "superinterfaces"
  | implementing => "implementing"
  | withTag => "with-tag"
  | tagsOn => "tags-on"
  | metaTagsOn => "meta-tags-on"
  | withMetaTag => "with-meta-tag"
  | withRoutineTag => "with-routine-tag"
  | withAttributeTag => "with-attribute-tag"

/-- The question that a word stands for. -/
def Question.ofWord? (word : String) : Option Question :=
  all.find? fun question => question.word = word

/-- The choice of types that a word stands for: all of them, or those of a kind. -/
def TypeKind.choiceOfWord? (word : String) : Option (Option TypeKind) :=
  if word = "all" then some none
  else (all.find? fun kind => kind.word = word).map some

namespace Verb

/-- The verbs in their order. -/
def all : List Verb := [list, query, origins, dot]

/-- The word for a verb. -/
def word : Verb → String
  | list => "list"
  | query => "query"
  | origins => "origins"
  | dot => "dot"

/-- The verb that a word stands for. -/
def ofWord? (word : String) : Option Verb := all.find? fun verb => verb.word = word

end Verb

/-- The word for a flag, which follows two hyphens. -/
def Flag.word : Flag → String
  | verbose => "verbose"
  | quiet => "quiet"
  | includeExternal => "include-external"
  | json => "json"
  | noAttributes => "no-attributes"
  | noRoutines => "no-routines"

/-- The letter for a flag, which follows one hyphen. -/
def Flag.letter? : Flag → Option Char
  | verbose => some 'v'
  | quiet => some 'q'
  | _ => none

/-- The word for a setting, which follows two hyphens. -/
def Setting.word : Setting → String
  | config => "config"
  | kind => "kind"
  | width => "width"
  | height => "height"
  | output => "output"

/-- The letter for a setting, which follows one hyphen. -/
def Setting.letter? : Setting → Option Char
  | output => some 'o'
  | _ => none

/-- A measure of the canvas from its text. -/
def measure? (text : String) : Option Binary32 := Binary.ofText? text

/-- Whether a setting may have a value: paths are not empty, kinds are known and
measures are numbers. -/
def Setting.accepts : Setting → String → Bool
  | config, value => value ≠ ""
  | kind, value => (TypeKind.choiceOfWord? value).isSome
  | width, value => (measure? value).isSome
  | height, value => (measure? value).isSome
  | output, value => value ≠ ""

/-- Whether an operand may be a word: paths are not empty and questions are known. -/
def Operand.accepts : Operand → String → Bool
  | records, word => word ≠ ""
  | question, word => (Question.ofWord? word).isSome
  | name, _ => true

/-- **What may stand at a place of the command line.** -/
structure Level where
  /-- The flags. -/
  flags : List Flag
  /-- The settings. -/
  settings : List Setting
  /-- The operands in order. -/
  operands : List Operand
  /-- Whether a verb may follow, and the version be asked for. -/
  beforeVerb : Bool

namespace Level

/-- The flags that go with every verb. -/
def sharedFlags : List Flag := [.verbose, .quiet, .includeExternal]

/-- Before the verb. -/
def top : Level := ⟨sharedFlags, [.config], [], true⟩

/-- After a verb. -/
def ofVerb : Verb → Level
  | .list => ⟨.json :: sharedFlags, [.kind, .config], [.records], false⟩
  | .query => ⟨.json :: sharedFlags, [.config], [.records, .question, .name], false⟩
  | .origins => ⟨.json :: sharedFlags, [.config], [.records, .name], false⟩
  | .dot =>
    ⟨.noAttributes :: .noRoutines :: sharedFlags, [.width, .height, .output, .config],
      [.records], false⟩

end Level

end TypeAtlas
