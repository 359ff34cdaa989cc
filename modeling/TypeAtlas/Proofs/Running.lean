import Mathlib.Data.List.Sort
import TypeAtlas.Command.Run
import TypeAtlas.Proofs.Arrival
import TypeAtlas.Proofs.Closure
import TypeAtlas.Proofs.CommandLine
import TypeAtlas.Proofs.JsonWriting

/-!
# Commands do what the library does

A command adds nothing of its own to what a graph can be asked. Its settings are those of
the configuration file, or the defaults without one (`Configured`), with what the command
line changes in them. The graph is built from the text of the records under the settings of
the scan, and the command ends well exactly if there is one; a diagram has to have valid
settings too, and these are looked at as they are after the changes, so the command line can
mend a configuration file and spoil it (`Invocation.Refines`). Which names a command answers with
is said for each word that stands for a kind or a question (`ListingWord`, `QueryWord`), and they
are printed as a JSON document or as lines of their own (`Printed`).

What is written to a file is read from it again (`Disk.Writable.exists_write?`): the file is
found by its path on the new disk as well, since a path leads through directories, and there
are no fewer of them than before.
-/

namespace TypeAtlas

/-- Text that is written as bytes is read back. -/
theorem fromUTF8?_toUTF8 (s : String) : String.fromUTF8? s.toUTF8 = some s :=
  dif_pos s.isValidUTF8

/-! ## Files that are written -/

namespace Disk

variable {d d' : Disk}

/-- Where there are files at all places where there were some, there are all directories. -/
theorem hasDirectory_mono (h : ∀ file ∈ d.files, ∃ file' ∈ d'.files, file'.1 = file.1)
    {way : List String} (hway : d.hasDirectory way = true) : d'.hasDirectory way = true := by
  rw [hasDirectory, Bool.or_eq_true, List.any_eq_true] at hway ⊢
  refine hway.imp_right fun ⟨file, hfile, hbelow⟩ => ?_
  obtain ⟨file', hfile', hplace⟩ := h file hfile
  exact ⟨file', hfile', by rwa [hplace]⟩

/-- So a path leads where it led. -/
theorem follow_mono (h : ∀ file ∈ d.files, ∃ file' ∈ d'.files, file'.1 = file.1)
    {start path way : List String} (hway : d.follow start path = some way) :
    d'.follow start path = some way := by
  induction path generalizing start with
  | nil => cases hway
  | cons step rest ih =>
    cases rest with
    | nil => exact hway
    | cons next rest =>
      unfold follow at hway ⊢
      split
      · next hstay =>
        rw [if_pos hstay] at hway
        exact ih hway
      · next hmove =>
        rw [if_neg hmove] at hway
        split
        · next hup =>
          rw [if_pos hup] at hway
          split
          · next htop => rw [if_pos htop] at hway; exact hway
          · next htop => rw [if_neg htop] at hway; exact ih hway
        · next hdown =>
          rw [if_neg hdown] at hway
          split at hway
          · next hdirectory => rw [if_pos (hasDirectory_mono h hdirectory)]; exact ih hway
          · cases hway

/-- **A file can be written** at a path: the directory is there, and it is none itself. -/
def Writable (d : Disk) (path : String) : Prop :=
  ∃ way, d.locate path = some way ∧ d.hasDirectory way = false

/-- **What is written can be read**, at the same path. -/
theorem Writable.exists_write? {path : String} (h : d.Writable path) (bytes : ByteArray) :
    ∃ d', d.write? path bytes = some d' ∧ d'.read? path = some bytes := by
  obtain ⟨way, hway, hfile⟩ := h
  let written : Disk := ⟨(way, bytes) :: d.files.filter fun file => file.1 ≠ way⟩
  have hplaces : ∀ file ∈ d.files, ∃ file' ∈ written.files, file'.1 = file.1 := by
    intro file hfile
    by_cases hplace : file.1 = way
    · exact ⟨(way, bytes), List.mem_cons_self, hplace.symm⟩
    · exact ⟨file, List.mem_cons_of_mem _
        (List.mem_filter.2 ⟨hfile, decide_eq_true hplace⟩), rfl⟩
  have hagain : written.locate path = some way := by
    unfold locate at hway ⊢
    split at hway
    · cases hway
    · next hinside =>
      rw [if_neg hinside]
      exact follow_mono hplaces hway
  refine ⟨written, ?_, ?_⟩
  · rw [write?, hway]
    simp only [hfile, Bool.false_eq_true, if_false]
    rfl
  · rw [read?, hagain]
    simp [written]

end Disk

/-! ## Settings -/

/-- **Where the settings of a command come from**: the configuration file that the command
line names, or else the one that the environment names, or else they are the defaults. -/
inductive Configured (i : Invocation) (environment : Option String)
    (read : String → Option ByteArray) : FileSettings → Prop
  /-- No file is named. -/
  | default (hconfig : i.config = none) (henvironment : environment = none) :
    Configured i environment read {}
  /-- The command line names a file. -/
  | named {path text : String} {settings : FileSettings} (hconfig : i.config = some path)
    (htext : Invocation.textOf? read path = some text)
    (hsettings : FileSettings.ofText? text = some settings) :
    Configured i environment read settings
  /-- Only the environment names a file. -/
  | inherited {path text : String} {settings : FileSettings} (hconfig : i.config = none)
    (henvironment : environment = some path)
    (htext : Invocation.textOf? read path = some text)
    (hsettings : FileSettings.ofText? text = some settings) :
    Configured i environment read settings

namespace Invocation

variable {i : Invocation} {environment : Option String} {read : String → Option ByteArray}
  {settings : FileSettings}

theorem fileSettings_eq (h : Configured i environment read settings) :
    i.fileSettings environment read = .ok settings := by
  cases h with
  | default hconfig henvironment =>
    simp [fileSettings, configPath?, hconfig, henvironment]
  | named hconfig htext hsettings =>
    simp [fileSettings, configPath?, hconfig, htext, hsettings]
  | inherited hconfig henvironment htext hsettings =>
    simp [fileSettings, configPath?, hconfig, henvironment, htext, hsettings]

/-- External types are shown if the command line or the configuration says so. -/
theorem scanSettings_eq (i : Invocation) (settings : FileSettings) :
    i.scanSettings settings = { settings.scan with
      enableExternalTypes := i.includeExternal || settings.scan.enableExternalTypes } := by
  cases hinclude : i.includeExternal <;> simp [scanSettings, hinclude]

end Invocation

/-! ## Names as they are printed -/

/-- **A text that names are printed as**, with JSON or without: a document that is the list of
them, and the end of a line; or the names, and behind each the end of a line. -/
inductive Printed (names : List String) : Bool → String → Prop
  /-- With JSON. -/
  | document {text : String} (h : Json.Document (.ofTexts names) text) :
    Printed names true (text ++ "\n")
  /-- Without. -/
  | lines : Printed names false (String.join (names.map fun name => name ++ "\n"))

/-- **Texts on lines of their own**: each is followed by the end of a line. -/
theorem join_lines {names : List String} (h : names ≠ []) :
    String.join (names.map (· ++ "\n")) = "\n".intercalate names ++ "\n" := by
  induction names with
  | nil => exact absurd rfl h
  | cons name rest ih =>
    cases rest with
    | nil => simp
    | cons next rest =>
      rw [List.map_cons, String.join_cons, ih (List.cons_ne_nil next rest),
        String.intercalate_cons_cons]
      simp [String.append_assoc]

theorem join_eq_printNames (names : List String) :
    String.join (names.map (· ++ "\n")) = printNames names false := by
  by_cases hnames : names = []
  · simp [printNames, hnames]
  · simp [printNames, hnames, join_lines hnames]

theorem printed_printNames (names : List String) (json : Bool) :
    Printed names json (printNames names json) := by
  cases json with
  | false => exact join_eq_printNames names ▸ .lines
  | true => exact .document (Json.document_writeLines names)

/-! ## Outcomes -/

/-- **A command answers with names**: it ends well exactly if there is a graph, and then it
prints the names and leaves the disk as it is. -/
structure Answers (result : Outcome × Disk) (disk : Disk) (built : Except BuildError TypeGraph)
    (names : TypeGraph → List String) (json : Bool) : Prop where
  /-- It ends well exactly if there is a graph. -/
  exit_eq_zero_iff : result.1.exit = 0 ↔ ∃ g, built = .ok g
  /-- With a graph, it prints the names. -/
  exists_printed : ∀ g, built = .ok g →
    ∃ text, Printed (names g) json text ∧ result = ({ exit := 0, stdout := text }, disk)

/-- **A command draws**: it ends well exactly if there is a graph and the settings of the
diagram are valid, and then the text of the diagram is printed or written. -/
structure Draws (result : Outcome × Disk) (disk : Disk) (built : Except BuildError TypeGraph)
    (diagram : DiagramSettings) (output : Option String) : Prop where
  /-- It ends well exactly if there is a graph and a canvas for the diagram. -/
  exit_eq_zero_iff : result.1.exit = 0 ↔ (∃ g, built = .ok g) ∧ diagram.problem? = none
  /-- Without a file to write to, the text is printed, and the end of a line after it. -/
  print : output = none → ∀ g, built = .ok g → diagram.problem? = none →
    result = ({ exit := 0, stdout := (g.defaultDiagram diagram).text ++ "\n" }, disk)
  /-- With one, the text is in the file, and nothing is printed. -/
  write : ∀ path, output = some path → ∀ g, built = .ok g → diagram.problem? = none →
    result.1 = { exit := 0 }
      ∧ Invocation.textOf? result.2.read? path = some (g.defaultDiagram diagram).text

/-- A command that fails draws as it should, if there is no graph or no canvas for it. -/
theorem Draws.of_exit_ne_zero {result : Outcome × Disk} {disk : Disk}
    {built : Except BuildError TypeGraph} {diagram : DiagramSettings} {output : Option String}
    (hexit : result.1.exit ≠ 0) (hnone : ∀ g, built = .ok g → diagram.problem? ≠ none) :
    Draws result disk built diagram output where
  exit_eq_zero_iff := iff_of_false hexit fun ⟨⟨g, hg⟩, hvalid⟩ => hnone g hg hvalid
  print _ g hg hvalid := absurd hvalid (hnone g hg)
  write _ _ g hg hvalid := absurd hvalid (hnone g hg)

/-- **A command does what the library does** under its settings: those given, changed by the
command line. -/
def Invocation.Refines (i : Invocation) (settings : FileSettings) (text : String) (disk : Disk)
    (result : Outcome × Disk) : Prop :=
  let built := TypeGraph.ofJson { settings.scan with
    enableExternalTypes := i.includeExternal || settings.scan.enableExternalTypes } text
  match i.task with
  | .list kind json =>
    ∃ word listing, ListingWord word kind listing ∧ Answers result disk built listing json
  | .query question name json =>
    ∃ word query, QueryWord word question query
      ∧ Answers result disk built (fun g => query g name) json
  | .origins name json => Answers result disk built (fun g => (g.origins? name).getD []) json
  | .dot width height noAttributes noRoutines output =>
    (∀ path, output = some path → disk.Writable path) →
      Draws result disk built {
        width := width.getD settings.diagram.width
        height := height.getD settings.diagram.height
        showAttributes := settings.diagram.showAttributes && !noAttributes
        showRoutines := settings.diagram.showRoutines && !noRoutines } output

/-! ## Runs -/

theorem ListingWord.taskEffect_eq {word : String} {kind : Option TypeKind}
    {listing : TypeGraph → List String} (h : ListingWord word kind listing) (json : Bool)
    (settings : FileSettings) (g : TypeGraph) :
    Invocation.taskEffect (.list kind json) settings g
      = .ok (.print (printNames (listing g) json)) := by
  cases h <;> rfl

theorem QueryWord.taskEffect_eq {word : String} {question : Question}
    {query : TypeGraph → String → List String} (h : QueryWord word question query)
    (name : String) (json : Bool) (settings : FileSettings) (g : TypeGraph) :
    Invocation.taskEffect (.query question name json) settings g
      = .ok (.print (printNames (query g name) json)) := by
  cases h <;> rfl

section Run

variable {words : List String} {environment : Option String} {disk : Disk} {i : Invocation}
  {settings : FileSettings} {text : String} (hparse : Invocation.parse words = .ok i)
  (hconfigured : Configured i environment disk.read? settings)
  (hrecords : Invocation.textOf? disk.read? i.records = some text)

include hconfigured hrecords in
/-- A command without a graph fails. -/
theorem effect_of_not_built {reason : BuildError}
    (hbuilt : TypeGraph.ofJson (i.scanSettings settings) text = .error reason) :
    i.effect environment disk.read? = .error (.noGraph i.records reason) := by
  simp only [Invocation.effect, Invocation.fileSettings_eq hconfigured, hrecords, hbuilt, bind,
    Except.bind]

include hconfigured hrecords in
/-- A command with a graph does its task with it. -/
theorem effect_of_built {g : TypeGraph}
    (hbuilt : TypeGraph.ofJson (i.scanSettings settings) text = .ok g) :
    i.effect environment disk.read? = Invocation.taskEffect i.task settings g := by
  simp only [Invocation.effect, Invocation.fileSettings_eq hconfigured, hrecords, hbuilt, bind,
    Except.bind]

include hparse

theorem run_of_failure {failure : Failure}
    (heffect : i.effect environment disk.read? = .error failure) :
    run words environment disk = (.ofFailure failure, disk) := by
  simp only [run, hparse, heffect]

theorem run_of_print {out : String}
    (heffect : i.effect environment disk.read? = .ok (.print out)) :
    run words environment disk = ({ exit := 0, stdout := out }, disk) := by
  simp only [run, hparse, heffect]

/-- What a command writes to a file can be read from it. -/
theorem run_of_write {path out : String}
    (heffect : i.effect environment disk.read? = .ok (.write path out))
    (hwritable : disk.Writable path) :
    (run words environment disk).1 = { exit := 0 }
      ∧ Invocation.textOf? (run words environment disk).2.read? path = some out := by
  obtain ⟨written, hwritten, hread⟩ := hwritable.exists_write? out.toUTF8
  have hrun : run words environment disk = ({ exit := 0 }, written) := by
    simp only [run, hparse, heffect, hwritten]
  rw [hrun, Invocation.textOf?, hread]
  exact ⟨rfl, fromUTF8?_toUTF8 out⟩

include hconfigured hrecords

/-- A command without a graph does not end well. -/
theorem exit_of_not_built {reason : BuildError}
    (hbuilt : TypeGraph.ofJson (i.scanSettings settings) text = .error reason) :
    (run words environment disk).1.exit = 1 := by
  rw [run_of_failure hparse (effect_of_not_built hconfigured hrecords hbuilt)]
  rfl

/-- A command whose task is to print names answers with them. -/
theorem answers_of_task {names : TypeGraph → List String} {json : Bool}
    (htask : ∀ g, Invocation.taskEffect i.task settings g
      = .ok (.print (printNames (names g) json))) :
    Answers (run words environment disk) disk
      (TypeGraph.ofJson (i.scanSettings settings) text) names json := by
  cases hbuilt : TypeGraph.ofJson (i.scanSettings settings) text with
  | error reason =>
    have hexit := exit_of_not_built hparse hconfigured hrecords hbuilt
    exact ⟨by simp [hexit], by simp⟩
  | ok g =>
    have hrun := run_of_print hparse
      ((effect_of_built hconfigured hrecords hbuilt).trans (htask g))
    refine ⟨by simp [hrun], fun g' hg' => ?_⟩
    obtain rfl := Except.ok.inj hg'
    exact ⟨_, printed_printNames (names g) json, hrun⟩

/-- A command whose task is to draw does so. -/
theorem draws_of_task {width height : Option Binary32} {noAttributes noRoutines : Bool}
    {output : Option String}
    (htask : i.task = .dot width height noAttributes noRoutines output)
    (hwritable : ∀ path, output = some path → disk.Writable path) :
    Draws (run words environment disk) disk
      (TypeGraph.ofJson (i.scanSettings settings) text)
      (Invocation.diagramSettings settings width height noAttributes noRoutines) output := by
  cases hbuilt : TypeGraph.ofJson (i.scanSettings settings) text with
  | error reason =>
    have hexit := exit_of_not_built hparse hconfigured hrecords hbuilt
    exact .of_exit_ne_zero (by simp [hexit]) nofun
  | ok g =>
    have heffect := effect_of_built hconfigured hrecords hbuilt
    rw [htask, Invocation.taskEffect] at heffect
    cases hproblem : (Invocation.diagramSettings settings width height noAttributes
        noRoutines).problem? with
    | some problem =>
      simp only [hproblem] at heffect
      have hrun := run_of_failure hparse heffect
      exact .of_exit_ne_zero (by simp [hrun, Outcome.ofFailure]) (by simp [hproblem])
    | none =>
      simp only [hproblem] at heffect
      -- the text of the diagram is printed, or is what the file has in it
      cases output with
      | none =>
        have hrun := run_of_print hparse heffect
        refine ⟨by simp [hrun, hproblem], fun _ g' hg' _ => ?_, nofun⟩
        rw [hrun, Except.ok.inj hg']
      | some path =>
        obtain ⟨hrun, hread⟩ := run_of_write hparse heffect (hwritable path rfl)
        refine ⟨by simp [hrun, hproblem], nofun, fun path' hpath g' hg' _ => ?_⟩
        obtain rfl := Option.some.inj hpath
        obtain rfl := Except.ok.inj hg'
        exact ⟨hrun, hread⟩

end Run

/-- **Commands do what the library does.** A command line is parsed to what it asks for; and
whatever a command line is parsed to, with the settings of its configuration file and the
text of its records at hand, what the command prints or writes is what the library makes of
the text under these settings, as the command line changes them. -/
theorem run_refines :
    (∀ {words : List String} {i : Invocation}, Spells words i → Invocation.parse words = .ok i)
      ∧ ∀ {words : List String} {environment : Option String} {disk : Disk} {i : Invocation}
          {settings : FileSettings} {text : String},
        Invocation.parse words = .ok i →
        Configured i environment disk.read? settings →
        Invocation.textOf? disk.read? i.records = some text →
        i.Refines settings text disk (run words environment disk) := by
  refine ⟨parse_of_spells, fun {words environment disk i settings text}
    hparse hconfigured hrecords => ?_⟩
  have hanswers : ∀ {names : TypeGraph → List String} {json : Bool},
      (∀ g, Invocation.taskEffect i.task settings g
        = .ok (.print (printNames (names g) json))) →
      Answers (run words environment disk) disk
        (TypeGraph.ofJson (i.scanSettings settings) text) names json :=
    answers_of_task hparse hconfigured hrecords
  unfold Invocation.Refines
  rw [← Invocation.scanSettings_eq]
  dsimp only
  split
  · next kind json htask =>
    obtain ⟨word, listing, hword⟩ := ListingWord.exists_word kind
    exact ⟨word, listing, hword, hanswers fun g => by rw [htask, hword.taskEffect_eq]⟩
  · next question name json htask =>
    obtain ⟨word, query, hword⟩ := QueryWord.exists_word question
    exact ⟨word, query, hword, hanswers fun g => by rw [htask, hword.taskEffect_eq]⟩
  · next htask => exact hanswers fun g => by rw [htask]; rfl
  · next htask => exact draws_of_task hparse hconfigured hrecords htask

/-- A ship, and its hull that is external. -/
def harbour : List TypeRecord :=
  [{ name := "Ship", kind := .standard, superclass := some "Hull" },
   { name := "Hull", kind := .standard, isExternal := true }]

/-- Above a ship there is its hull. -/
theorem closure_harbour {g : TypeGraph}
    (h : TypeGraph.ofRecords .withExternalTypes harbour = .ok g) :
    g.closure .extendsClass .outgoing "Ship" = ["Hull"] := by
  obtain ⟨g', hg', hsettings, hrecords⟩ :=
    @TypeGraph.exists_ofRecords .withExternalTypes harbour (by decide) (by decide) (by decide)
  obtain rfl : g' = g := Except.ok.inj (hg'.symm.trans h)
  have hmem : ∀ r, r ∈ g'.records ↔ r ∈ harbour := fun r => by
    rw [hrecords, TypeRecord.mem_arrange]
  refine (TypeGraph.pairwise_closure _ _ _).eq_of_mem_iff (List.pairwise_singleton _ _) fun m => ?_
  rw [TypeGraph.mem_closure, List.mem_singleton]
  constructor
  · rintro ⟨hne, -, -, r, hr, -⟩
    rw [g'.record?_eq_some_iff, hmem] at hr
    obtain ⟨hr, rfl⟩ := hr
    obtain rfl | rfl : r = harbour[0] ∨ r = harbour[1] := by simpa [harbour] using hr
    · exact absurd rfl hne
    · rfl
  · rintro rfl
    have hship : harbour[0] ∈ g'.records := (hmem _).2 (by decide)
    have hhull : harbour[1] ∈ g'.records := (hmem _).2 (by decide)
    have hedge : g'.HasEdge "Ship" .extendsClass "Hull" :=
      (TypeGraph.hasEdge_iff hship hhull).2 (by decide)
    have hshows : g'.Shows "Hull" :=
      ⟨by rw [hsettings]; decide, harbour[1], g'.record?_eq_some_iff.2 ⟨hhull, rfl⟩,
        .inr (by rw [hsettings]; rfl)⟩
    exact ⟨by decide, .single hedge, hshows⟩

/-- A disk with records, and with a configuration file that gives a canvas no proper
width. -/
def harbourDisk (text : String) : Disk :=
  ⟨[(["scan.toml"], "[diagram]\nwidth = -1\n".toUTF8), (["r.json"], text.toUTF8)]⟩

/-- The question about ships is answered although the canvas is wrong, and the diagram is
drawn once its width is mended. -/
theorem run_refines_harbour :
    ∃ text : String,
      TypeGraph.ofJson .withExternalTypes text = TypeGraph.ofRecords .withExternalTypes harbour
      ∧ run ["--include-external", "query", "r.json", "superclasses", "Ship",
          "--config=scan.toml"] none (harbourDisk text)
        = ({ exit := 0, stdout := "Hull\n" }, harbourDisk text)
      ∧ (run ["dot", "r.json"] (some "scan.toml") (harbourDisk text)).1.exit ≠ 0
      ∧ (run ["dot", "r.json", "--width", "12", "--output=ships.dot"] (some "scan.toml")
          (harbourDisk text)).1.exit = 0 := by
  obtain ⟨hspells, hrefines⟩ := @run_refines
  obtain ⟨g, hg, -, -⟩ :=
    @TypeGraph.exists_ofRecords .withExternalTypes harbour (by decide) (by decide) (by decide)
  obtain ⟨closed, hclosed, -, -⟩ :=
    @TypeGraph.exists_ofRecords {} harbour (by decide) (by decide) (by decide)
  obtain ⟨text, hdocument⟩ := TypeGraph.exists_document_list harbour
  have hbuilt : ∀ settings, TypeGraph.ofJson settings text
      = TypeGraph.ofRecords settings harbour := fun settings =>
    TypeGraph.ofJson_eq_ofRecords settings harbour hdocument
  -- both files are read as they are
  have htoml : Invocation.textOf? (harbourDisk text).read? "scan.toml"
      = some "[diagram]\nwidth = -1\n" := fromUTF8?_toUTF8 "[diagram]\nwidth = -1\n"
  have htext : Invocation.textOf? (harbourDisk text).read? "r.json" = some text :=
    fromUTF8?_toUTF8 _
  have hsettings : FileSettings.ofText? "[diagram]\nwidth = -1\n"
      = some { diagram := { width := Binary.ofInt (-1) } } := by decide +kernel
  have hpath : ∀ word : String, word.toList.head? ≠ some '-' → IsPlain word := fun word h hdash =>
    absurd hdash h
  refine ⟨text, hbuilt _, ?_, ?_, ?_⟩
  · have hline : Spells ["--include-external", "query", "r.json", "superclasses", "Ship",
          "--config=scan.toml"]
        ⟨some "scan.toml", true, "r.json", .query .superclasses "Ship" false⟩ :=
      @Spells.line _ _ _ ["--include-external"] _ _ _ _
        (.flag (by decide) rfl .done)
        (.operand rfl (by decide) (hpath _ (by decide))
          (.operand rfl ⟨_, _, .superclasses⟩ (hpath _ (by decide))
            (.operand rfl trivial (hpath _ (by decide))
              (@Gives.joined _ _ _ "--config" "scan.toml" _ _ List.mem_cons_self rfl (by decide)
                .done))))
        (.query rfl .superclasses)
    obtain ⟨_, _, hword, hanswers⟩ :=
      @hrefines _ none _ _ _ _ (hspells hline) (.named rfl htoml hsettings) htext
    cases hword
    obtain ⟨_, hprinted, hrun⟩ := hanswers.exists_printed g ((hbuilt _).trans hg)
    cases hprinted
    simp only [closure_harbour hg] at hrun
    exact hrun
  · have hline : Spells ["dot", "r.json"]
        ⟨none, false, "r.json", .dot none none false false none⟩ :=
      @Spells.line _ _ _ [] _ _ _ _ .done (.operand rfl (by decide) (hpath _ (by decide)) .done)
        (.dot rfl)
    have hrefined := hrefines (hspells hline) (.inherited rfl rfl htoml hsettings) htext
    intro hexit
    have hproblem := ((hrefined nofun).exit_eq_zero_iff.1 hexit).2
    exact absurd ((DiagramSettings.problem?_eq_none_iff _).1 hproblem).1 (by decide +kernel)
  · have hmeasure : (measure? "12").isSome := by decide +kernel
    have hline : Spells ["dot", "r.json", "--width", "12", "--output=ships.dot"]
        ⟨none, false, "r.json", .dot (measure? "12") none false false (some "ships.dot")⟩ :=
      @Spells.line _ _ _ [] _ _ _ _ .done
        (.operand rfl (by decide) (hpath _ (by decide))
          (@Gives.apart _ _ _ "--width" "12" _ _ List.mem_cons_self rfl hmeasure
            (hpath _ (by decide))
            (@Gives.joined _ _ _ "--output" "ships.dot" _ _
              (List.mem_cons_of_mem _ (List.mem_cons_of_mem _ List.mem_cons_self)) rfl (by decide)
              .done)))
        (.dot rfl)
    have hrefined := hrefines (hspells hline) (.inherited rfl rfl htoml hsettings) htext
    have hwritable : ∀ path, some "ships.dot" = some path → (harbourDisk text).Writable path := by
      rintro _ ⟨⟩
      exact ⟨["ships.dot"], rfl, rfl⟩
    refine (hrefined hwritable).exit_eq_zero_iff.2 ⟨⟨closed, (hbuilt _).trans hclosed⟩, ?_⟩
    exact (DiagramSettings.problem?_eq_none_iff _).2 ⟨by decide +kernel, by decide +kernel⟩

end TypeAtlas
