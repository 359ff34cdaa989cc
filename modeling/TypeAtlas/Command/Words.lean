import TypeAtlas.Command.Vocabulary

/-!
# Gathering the words of a command line

The words of a command line are taken from left to right and sorted into flags,
settings and operands. A word with two hyphens names a flag or a setting in full; a
word with one hyphen is a row of letters, and the first letter of a setting in it is
followed by the value. The value of a setting stands behind an equals sign or is the
next word, which then must not start with a hyphen. After a word of two hyphens alone
every word is an operand. Nothing is given twice.
-/

namespace TypeAtlas

/-- **Why there is no invocation.** -/
inductive Stop where
  /-- The words do not make up a command. -/
  | usage
  /-- Help is asked for. -/
  | help
  /-- The version is asked for. -/
  | version
  deriving DecidableEq

/-- **The words of a level, sorted.** -/
structure Gathered where
  /-- The flags given. -/
  flags : List Flag := []
  /-- The settings given and their values. -/
  settings : List (Setting × String) := []
  /-- The operands in order. -/
  operands : List String := []

namespace Gathered

/-- Whether a flag is given. -/
def has (g : Gathered) (flag : Flag) : Bool := flag ∈ g.flags

/-- The value of a setting. -/
def value? (g : Gathered) (setting : Setting) : Option String :=
  (g.settings.find? fun given => given.1 = setting).map (·.2)

/-- One more flag. -/
def addFlag (g : Gathered) (flag : Flag) : Except Stop Gathered :=
  if g.has flag then .error .usage else .ok { g with flags := flag :: g.flags }

/-- One more setting. -/
def addSetting (g : Gathered) (setting : Setting) (value : String) :
    Except Stop Gathered :=
  if (g.value? setting).isSome || !setting.accepts value then .error .usage
  else .ok { g with settings := (setting, value) :: g.settings }

/-- One more operand, if the level has one more. -/
def addOperand (g : Gathered) (level : Level) (word : String) : Except Stop Gathered :=
  match level.operands[g.operands.length]? with
  | some operand =>
    if operand.accepts word then .ok { g with operands := g.operands ++ [word] }
    else .error .usage
  | none => .error .usage

/-- A word after two hyphens. A setting without a value is returned, for the next word
is its value. -/
def addLong (g : Gathered) (level : Level) (cs : List Char) :
    Except Stop (Gathered × Option Setting) :=
  let word := String.ofList (cs.takeWhile (· ≠ '='))
  let value? := match cs.dropWhile (· ≠ '=') with
    | [] => none
    | _ :: value => some (String.ofList value)
  match level.flags.find? (·.word = word), level.settings.find? (·.word = word), value? with
  | some flag, _, none => (·, none) <$> g.addFlag flag
  | none, some setting, some value => (·, none) <$> g.addSetting setting value
  | none, some setting, none => .ok (g, some setting)
  | none, none, none =>
    if word = "help" then .error .help
    else if word = "version" && level.beforeVerb then .error .version
    else .error .usage
  | _, _, _ => .error .usage

/-- The letters after one hyphen. A setting without a value is returned, for the next
word is its value. -/
def addLetters (g : Gathered) (level : Level) :
    List Char → Except Stop (Gathered × Option Setting)
  | [] => .ok (g, none)
  | c :: rest =>
    match level.flags.find? (·.letter? = some c), level.settings.find? (·.letter? = some c) with
    | some flag, _ =>
      match g.addFlag flag with
      | .ok g => g.addLetters level rest
      | .error stop => .error stop
    | none, some setting =>
      match rest with
      | [] => .ok (g, some setting)
      | '=' :: value => (·, none) <$> g.addSetting setting (String.ofList value)
      | value => (·, none) <$> g.addSetting setting (String.ofList value)
    | none, none =>
      if c = 'h' then .error .help
      else if c = 'V' && level.beforeVerb then .error .version
      else .error .usage

end Gathered

/-- **What the next word is taken for.** -/
inductive Mode where
  /-- A flag, a setting, an operand or a verb. -/
  | any
  /-- The value of a setting. -/
  | valueOf (setting : Setting)
  /-- An operand. -/
  | operand

/-- The mode after a word that may have left a setting without its value. -/
def Mode.after : Option Setting → Mode
  | none => .any
  | some setting => .valueOf setting

/-- Whether a word starts with a hyphen and is more than that. -/
def isDashed (word : String) : Bool :=
  match word.toList with
  | '-' :: _ :: _ => true
  | _ => false

/-- Whether help may be asked for after the word that asks for it: for all, for a verb,
or for help itself. -/
def isHelpTopic : List String → Bool
  | [] => true
  | [word] => word = "help" || (Verb.ofWord? word).isSome
  | _ => false

/-- **The words of a level**, up to the verb if one may follow, and the verb with the
words after it. -/
def gather (level : Level) :
    Mode → Gathered → List String → Except Stop (Gathered × Option (Verb × List String))
  | .valueOf _, _, [] => .error .usage
  | _, g, [] => .ok (g, none)
  | .operand, g, word :: rest =>
    match g.addOperand level word with
    | .ok g => gather level .operand g rest
    | .error stop => .error stop
  | .valueOf setting, g, word :: rest =>
    if isDashed word then .error .usage
    else
      match g.addSetting setting word with
      | .ok g => gather level .any g rest
      | .error stop => .error stop
  | .any, g, word :: rest =>
    match level.beforeVerb, Verb.ofWord? word with
    | true, some verb => .ok (g, some (verb, rest))
    | _, _ =>
      if level.beforeVerb && word = "help" then
        .error (if isHelpTopic rest then .help else .usage)
      else if word = "--" then gather level .operand g rest
      else
        let added :=
          match word.toList with
          | '-' :: '-' :: cs => g.addLong level cs
          | '-' :: c :: cs => g.addLetters level (c :: cs)
          | _ => (·, none) <$> g.addOperand level word
        match added with
        | .ok (g, waiting) => gather level (.after waiting) g rest
        | .error stop => .error stop

end TypeAtlas
