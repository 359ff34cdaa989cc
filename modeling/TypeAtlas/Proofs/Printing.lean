import TypeAtlas.Proofs.Atomicity
import TypeAtlas.Proofs.JsonWriting
import TypeAtlas.Proofs.Spelling
import TypeAtlas.Proofs.Storage

/-!
# Names in both modes

A command that answers with names prints them as a JSON document or as lines of their own.
The document ends with the end of a line, and is read and decoded as the names, whatever
characters they are made of. The lines end alike, the last one too, so no names are no lines,
and an empty name is an empty line.

`CarriesNames` puts this together for what the two modes print. The mode changes nothing else: a
task that is to print names has the same names to print in both (`Task.AsksFor`), and what a
command goes wrong with, or the graph that it comes to, does not depend on its task
(`goesWrong_or_builds_of_task`).
-/

namespace TypeAtlas

/-- A list of texts decodes to the texts. -/
theorem Data.asTexts_ofTexts (texts : List String) : (ofTexts texts).asTexts = .ok texts :=
  Decodes.texts texts _ (@ListOf.map _ (Only .text) _ (fun _ => rfl) texts)

/-! ## Both modes -/

/-- **What is printed carries names** in both modes, with JSON and without. -/
structure CarriesNames (names : List String) (out : Bool → String) : Prop where
  /-- With JSON it is one document and the end of a line, and the document is the list of
  the names. -/
  document : ∃ text, out true = text ++ "\n" ∧ Json.Document (.ofTexts names) text
  /-- All that is printed is read and decoded as the names. -/
  read : (Json.read? (out true)).map Data.asTexts = some (.ok names)
  /-- No names are two brackets. -/
  eq_brackets_iff : out true = "[]\n" ↔ names = []
  /-- Without JSON it is the names, and behind each the end of a line. -/
  lines : out false = String.join (names.map (· ++ "\n"))
  /-- No names are no lines. -/
  eq_empty_iff : out false = "" ↔ names = []
  /-- One empty name is one empty line. -/
  eq_line : names = [""] → out false = "\n"

/-- The whole of what is printed with JSON is read and decoded as the names. -/
theorem read?_printNames (names : List String) :
    (Json.read? (printNames names true)).map Data.asTexts = some (.ok names) := by
  have hdocument := Json.document_writeLines_append names "\n" (List.all_eq_true.1 rfl)
  rw [printNames, if_pos rfl, Json.read?_eq_some_iff.2 hdocument, Option.map_some,
    Data.asTexts_ofTexts]

/-- With JSON, other names are printed as another text. -/
theorem printNames_injective (names others : List String)
    (h : printNames names true = printNames others true) : names = others := by
  have hread := read?_printNames names
  rw [h, read?_printNames] at hread
  exact (Except.ok.inj (Option.some.inj hread)).symm

theorem carriesNames_printNames (names : List String) :
    CarriesNames names (printNames names) where
  document := ⟨Json.writeLines names, rfl, Json.document_writeLines names⟩
  read := read?_printNames names
  eq_brackets_iff := ⟨printNames_injective names [], by rintro rfl; rfl⟩
  lines := (join_eq_printNames names).symm
  eq_empty_iff := by
    rw [← join_eq_printNames]
    cases names <;> simp
  eq_line := by rintro rfl; rfl

/-- **The tasks that answer with names**, in both modes, and the names of a graph that they
answer with. -/
inductive Task.AsksFor : (Bool → Task) → (TypeGraph → List String) → Prop
  /-- All types. -/
  | list : AsksFor (.list none) fun g => g.allNames
  /-- The types of a kind. -/
  | listKind (kind : TypeKind) : AsksFor (.list (some kind)) fun g => g.namesOfKind kind
  /-- The answer to a question. -/
  | query (question : Question) (name : String) :
      AsksFor (.query question name) fun g => g.answer question name
  /-- The places of a type. -/
  | origins (name : String) : AsksFor (.origins name) fun g => (g.origins? name).getD []

theorem Task.AsksFor.taskEffect_eq {task : Bool → Task} {names : TypeGraph → List String}
    (h : Task.AsksFor task names) (json : Bool) (settings : FileSettings) (g : TypeGraph) :
    Invocation.taskEffect (task json) settings g = .ok (.print (printNames (names g) json)) := by
  cases h <;> rfl

/-- **The mode changes how names are printed, and nothing else.** Any names are carried by what
is printed for them in both modes. And two command lines that ask for the same names, one with
JSON and one without, either fail alike, or come to the same graph and print its names in their
modes. The disk stays as it is. -/
theorem run_carries :
    (∀ names, CarriesNames names (printNames names))
      ∧ ∀ {task : Bool → Task} {names : TypeGraph → List String} {i : Invocation}
          {words : Bool → List String} (environment : Option String) (disk : Disk),
        Task.AsksFor task names →
        (∀ json, Invocation.parse (words json) = .ok { i with task := task json }) →
        (∃ failure, ∀ json, run (words json) environment disk = (.ofFailure failure, disk))
          ∨ ∃ settings g, ∀ json,
            Builds { i with task := task json } environment disk settings (.ok g)
              ∧ run (words json) environment disk
                = ({ exit := 0, stdout := printNames (names g) json }, disk) := by
  refine ⟨carriesNames_printNames, fun {task names i words} environment disk htask hparse => ?_⟩
  obtain ⟨failure, hwrong⟩ | ⟨settings, g, hbuilds⟩ :=
    goesWrong_or_builds_of_task i environment disk
  · exact .inl ⟨failure, fun json => (hwrong (task json)).run_eq (hparse json)⟩
  · refine .inr ⟨settings, g, fun json => ⟨hbuilds (task json), ?_⟩⟩
    refine run_of_print (hparse json) ?_
    rw [(hbuilds (task json)).effect_eq, htask.taskEffect_eq]

/-- A disk with the records of a ship that has two places, one of them without a name. -/
def quayDisk (text : String) : Disk := ⟨[(["r.json"], text.toUTF8)]⟩

/-- The ship. -/
def moored : TypeRecord := { name := "Ship", kind := .standard, origins := ["", "a\"\\\n"] }

/-- Asked for its places, a command prints an empty line for the one and a line for the other,
or a document with both. -/
theorem run_carries_moored :
    ∃ text : String,
      (run ["origins", "r.json", "Ship"] none (quayDisk text)).1.stdout = "\na\"\\\n\n"
        ∧ (run ["origins", "r.json", "Ship", "--json"] none (quayDisk text)).1.stdout
          = "[\n  \"\",\n  \"a\\\"\\\\\\n\"\n]\n" := by
  obtain ⟨g, hg, -, hrecords⟩ :=
    @TypeGraph.exists_ofRecords {} [moored] (by decide) (by decide) (by decide)
  obtain ⟨text, hdocument⟩ := TypeGraph.exists_document_list [moored]
  have htext : Invocation.textOf? (quayDisk text).read? "r.json" = some text :=
    fromUTF8?_toUTF8 text
  have hbuilt : TypeGraph.ofJson {} text = .ok g :=
    (TypeGraph.ofJson_eq_ofRecords {} [moored] hdocument).trans hg
  have hmem : moored ∈ g.records := hrecords ▸ TypeRecord.mem_arrange.2 List.mem_cons_self
  have hplaces : g.origins? "Ship" = some moored.origins :=
    g.origins?_of_record? (g.record?_eq_some_iff.2 ⟨hmem, rfl⟩)
  have hparse : ∀ json : Bool, Invocation.parse
      (["origins", "r.json", "Ship"] ++ if json then ["--json"] else [])
        = .ok ⟨none, false, "r.json", .origins "Ship" json⟩ := by
    intro json
    cases json <;> rfl
  -- with a graph at hand, the command does not fail
  have hbuilds : Builds ⟨none, false, "r.json", .origins "Ship" false⟩ none (quayDisk text) {}
      (.ok g) := ⟨.default rfl rfl, text, htext, hbuilt⟩
  have hprints := run_of_print (hparse false) hbuilds.effect_eq
  obtain ⟨failure, hfails⟩ | ⟨settings, g', hends⟩ :=
    run_carries.2 (i := ⟨none, false, "r.json", .origins "Ship" false⟩) none
      (quayDisk text) (.origins "Ship") hparse
  · have hexit := congrArg (·.1.exit) (hprints.symm.trans (hfails false))
    cases hexit
  · obtain ⟨hconfigured, text', htext', hbuilt'⟩ := (hends false).1
    -- without a configuration file, the graph is the one at hand
    obtain rfl : text' = text := Option.some.inj (htext'.symm.trans htext)
    obtain rfl : settings = {} := by
      cases hconfigured with
      | default => rfl
      | named hconfig | inherited _ hconfig => cases hconfig
    obtain rfl : g' = g := Except.ok.inj (hbuilt'.symm.trans hbuilt)
    have hout : ∀ json, (run (["origins", "r.json", "Ship"] ++ if json then ["--json"] else [])
        none (quayDisk text')).1.stdout = printNames moored.origins json := by
      intro json
      rw [(hends json).2, hplaces, Option.getD_some]
    exact ⟨text', (hout false).trans (by decide +kernel), (hout true).trans (by decide +kernel)⟩

end TypeAtlas
