import TypeAtlas.Command.Words

/-!
# Invocations

What a command line asks for, once its words are sorted. What stands before the verb
and what stands after it count alike; of two configuration files the one named after
the verb is used.
-/

namespace TypeAtlas

/-- **What is to be done with the graph.** -/
inductive Task where
  /-- List the names of all types, or of those of a kind. -/
  | list (kind : Option TypeKind) (json : Bool)
  /-- Answer a question about a name. -/
  | query (question : Question) (name : String) (json : Bool)
  /-- Say where a type was loaded from. -/
  | origins (name : String) (json : Bool)
  /-- Draw the diagram, on a canvas of given measures if there are any, and write it to a
  file if one is named. -/
  | dot (width height : Option Binary32) (noAttributes noRoutines : Bool)
    (output : Option String)

/-- **An invocation.** -/
structure Invocation where
  /-- The path of the configuration file, if one is named. -/
  config : Option String
  /-- Whether external types are shown whatever the configuration says. -/
  includeExternal : Bool
  /-- The path of the file with the records. -/
  records : String
  /-- What is to be done. -/
  task : Task

namespace Invocation

/-- The task of a verb with its words. -/
def taskOf? (verb : Verb) (g : Gathered) : Option (String × Task) :=
  match verb, g.operands with
  | .list, [records] =>
    let kind := ((g.value? .kind).bind TypeKind.choiceOfWord?).getD none
    some (records, .list kind (g.has .json))
  | .query, [records, word, name] =>
    (Question.ofWord? word).map fun question => (records, .query question name (g.has .json))
  | .origins, [records, name] => some (records, .origins name (g.has .json))
  | .dot, [records] =>
    some (records, .dot ((g.value? .width).bind measure?) ((g.value? .height).bind measure?)
      (g.has .noAttributes) (g.has .noRoutines) (g.value? .output))
  | _, _ => none

/-- **The invocation of a command line**, given as the words after the program's
name. -/
def parse (words : List String) : Except Stop Invocation := do
  let (before, verb?) ← gather .top .any {} words
  match verb? with
  | none => .error .usage
  | some (verb, rest) =>
    let (after, _) ← gather (.ofVerb verb) .any {} rest
    match taskOf? verb after with
    | none => .error .usage
    | some (records, task) =>
      .ok {
        config := (after.value? .config).or (before.value? .config)
        includeExternal := before.has .includeExternal || after.has .includeExternal
        records
        task }

end Invocation

end TypeAtlas
