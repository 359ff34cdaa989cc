import TypeAtlas.Command.Session
import TypeAtlas.Proofs.Running

/-!
# Commands do all or nothing

A command that fails leaves no trace: nothing is printed and the disk is as it was, whatever
went wrong (`GoesWrong`) and however far the command had come. One that ends well changes at
most the file that it was told to write to (`Disk.AgreesOff`).

This is said of the command as it goes along (`session`), where a step could print and a
later one fail. It does not happen, since every step of a command but the last only looks at
the world (`Step.Ends.bind`), and the last one either fails or prints or writes. Working out
the effect of a command first and carrying it out afterwards comes to the same
(`run_eq_session`).
-/

namespace TypeAtlas

/-! ## What a written file changes -/

namespace Disk

variable {d d' : Disk} {way dir : List String}

/-- The way to a directory leads through directories. -/
theorem hasDirectory_above (h : dir <+: way) (hway : d.hasDirectory way = true) :
    d.hasDirectory dir = true := by
  obtain rfl | hne := eq_or_ne way []
  · rwa [List.prefix_nil.1 h]
  rw [hasDirectory, Bool.or_eq_true, List.any_eq_true] at hway ⊢
  right
  obtain ⟨file, hfile, hbelow⟩ := hway.resolve_left (by simpa using hne)
  simp only [Bool.and_eq_true, List.isPrefixOf_iff_prefix, decide_eq_true_eq] at hbelow
  refine ⟨file, hfile, ?_⟩
  simp only [Bool.and_eq_true, List.isPrefixOf_iff_prefix, decide_eq_true_eq]
  refine ⟨h.trans hbelow.1, fun heq => hbelow.2 ?_⟩
  exact hbelow.1.eq_of_length_le (heq ▸ h.length_le)

/-- A path leads to a place in a directory. -/
theorem hasDirectory_of_follow {start path : List String} (hstart : d.hasDirectory start = true)
    (h : d.follow start path = some way) :
    ∃ dir name, way = dir ++ [name] ∧ d.hasDirectory dir = true := by
  induction path generalizing start with
  | nil => cases h
  | cons step rest ih =>
    cases rest with
    | nil =>
      unfold follow at h
      split at h
      · cases h
      · exact ⟨start, step, (Option.some.inj h).symm, hstart⟩
    | cons next rest =>
      unfold follow at h
      split at h
      · exact ih hstart h
      · split at h
        · split at h
          · cases h
          · have hup : start.dropLast <+: start := List.dropLast_prefix start
            exact ih (hasDirectory_above hup hstart) h
        · split at h
          · next hdirectory => exact ih hdirectory h
          · cases h

theorem hasDirectory_of_locate {path : String} (h : d.locate path = some way) :
    ∃ dir name, way = dir ++ [name] ∧ d.hasDirectory dir = true := by
  unfold locate at h
  split at h
  · cases h
  · exact hasDirectory_of_follow rfl h

/-- **Two disks agree off a path**: paths lead where they led, and what is not at the place
of this one is the same. -/
structure AgreesOff (d d' : Disk) (path : String) : Prop where
  /-- Each path leads where it led. -/
  locate_eq : ∀ other, d'.locate other = d.locate other
  /-- There are the same files with the same bytes at all other places. -/
  mem_files_iff : ∀ file, d.locate path ≠ some file.1 → (file ∈ d'.files ↔ file ∈ d.files)
  /-- So a path that leads elsewhere is read as it was, if there is a file at all. -/
  read?_eq : ∀ other, d.locate other ≠ d.locate path → d'.read? other = d.read? other

/-- The disk with the bytes of one file, in the place of those that it had. -/
def put (d : Disk) (way : List String) (bytes : ByteArray) : Disk :=
  ⟨(way, bytes) :: d.files.filter fun file => file.1 ≠ way⟩

theorem write?_eq_some_iff {path : String} {bytes : ByteArray} :
    d.write? path bytes = some d' ↔
      ∃ way, d.locate path = some way ∧ d.hasDirectory way = false ∧ d' = d.put way bytes := by
  unfold write?
  cases d.locate path with
  | none => simp
  | some way => cases hway : d.hasDirectory way <;> simp [put, hway, @eq_comm _ d']

theorem write?_eq_none_iff {path : String} {bytes : ByteArray} :
    d.write? path bytes = none ↔ ¬ d.Writable path := by
  rw [← not_iff_not, not_not, ← ne_eq, Option.ne_none_iff_exists']
  simp only [write?_eq_some_iff, Writable]
  exact ⟨fun ⟨_, way, hway, hfile, _⟩ => ⟨way, hway, hfile⟩,
    fun ⟨way, hway, hfile⟩ => ⟨_, way, hway, hfile, rfl⟩⟩

theorem mem_files_put {bytes : ByteArray} {file : List String × ByteArray} (h : way ≠ file.1) :
    file ∈ (d.put way bytes).files ↔ file ∈ d.files := by
  have hne : file ≠ (way, bytes) := fun heq => h (by rw [heq])
  simp [put, hne, Ne.symm h]

/-- A file in a directory makes no new directories. -/
theorem hasDirectory_put {name : String} (hdir : d.hasDirectory dir = true) (bytes : ByteArray)
    (other : List String) :
    (d.put (dir ++ [name]) bytes).hasDirectory other = d.hasDirectory other := by
  rw [Bool.eq_iff_iff]
  constructor
  · intro h
    rw [hasDirectory, Bool.or_eq_true, List.any_eq_true] at h
    obtain htop | ⟨file, hfile, hbelow⟩ := h
    · rw [hasDirectory, htop, Bool.true_or]
    simp only [Bool.and_eq_true, List.isPrefixOf_iff_prefix, decide_eq_true_eq] at hbelow
    by_cases hplace : dir ++ [name] = file.1
    · -- what is above the new file is the directory that it is in, or above that
      rw [← hplace, List.prefix_concat_iff] at hbelow
      exact hasDirectory_above (hbelow.1.resolve_left hbelow.2) hdir
    · rw [hasDirectory, Bool.or_eq_true, List.any_eq_true]
      right
      exact ⟨file, (mem_files_put hplace).1 hfile, by simpa using hbelow⟩
  · refine hasDirectory_mono fun file hfile => ?_
    by_cases hplace : dir ++ [name] = file.1
    · exact ⟨(dir ++ [name], bytes), List.mem_cons_self, hplace⟩
    · exact ⟨file, (mem_files_put hplace).2 hfile, rfl⟩

/-- Where there are the same directories, paths lead to the same places. -/
theorem follow_congr (h : ∀ other, d'.hasDirectory other = d.hasDirectory other)
    (start path : List String) : d'.follow start path = d.follow start path := by
  induction path generalizing start with
  | nil => rfl
  | cons step rest ih =>
    cases rest with
    | nil => rfl
    | cons next rest => simp only [follow, ih, h]

/-- **A written file changes nothing else.** -/
theorem agreesOff_of_write? {path : String} {bytes : ByteArray}
    (h : d.write? path bytes = some d') : d.AgreesOff d' path := by
  obtain ⟨way, hway, -, rfl⟩ := write?_eq_some_iff.1 h
  obtain ⟨dir, name, rfl, hdir⟩ := hasDirectory_of_locate hway
  have hlocate : ∀ other, (d.put (dir ++ [name]) bytes).locate other = d.locate other := by
    intro other
    rw [locate, locate, follow_congr (hasDirectory_put hdir bytes)]
  refine ⟨hlocate, fun file hfile => ?_, fun other hother => ?_⟩
  · rw [hway] at hfile
    exact mem_files_put fun heq => hfile (congrArg some heq)
  · rw [hway] at hother
    rw [read?, read?, hlocate]
    cases hplace : d.locate other with
    | none => rfl
    | some place =>
      have hne : ¬ (dir ++ [name]) = place := fun heq => hother (by rw [hplace, heq])
      simp only [put]
      rw [List.find?_cons_of_neg (by simpa using hne), List.find?_filter]
      congr 2
      funext file
      by_cases heq : file.1 = place
      · simp [heq, Ne.symm hne]
      · simp [heq]

end Disk

/-! ## Steps -/

/-- An effect as a step. -/
def Effect.step : Effect → Step Unit
  | print text => Step.print text
  | write path text => Step.write path text

namespace Step

variable {α β : Type}

theorem run_bind (a : Step α) (k : α → Step β) (w : World) :
    (a >>= k).run w = match a.run w with
      | (.ok x, w') => (k x).run w'
      | (.error failure, w') => (.error failure, w') := by
  change ExceptT.bind a k w = _
  simp only [ExceptT.bind, ExceptT.mk, bind, StateT.bind, ExceptT.bindCont]
  change _ = match a w with
      | (.ok x, w') => (k x) w'
      | (.error failure, w') => (.error failure, w')
  cases a w with
  | mk result next => cases result <;> rfl

/-- **How a step ends** in a world: if it has a result, then in a world of some kind, and if
it fails, then in the world that it found. -/
def Ends (a : Step α) (w : World) (Q : World → Prop) : Prop :=
  match a.run w with
  | (.ok _, w') => Q w'
  | (.error _, w') => w' = w

/-- A step that only looks. -/
def Looks (a : Step α) : Prop := ∀ w, a.Ends w (· = w)

theorem Ends.bind {a : Step α} {k : α → Step β} {w : World} {Q : World → Prop}
    (ha : a.Looks) (hk : ∀ x, (k x).Ends w Q) : (a >>= k).Ends w Q := by
  have hlook := ha w
  unfold Ends at hlook hk ⊢
  rw [run_bind]
  split at hlook
  · next x w' _ => subst hlook; exact hk x
  · exact hlook

theorem Ends.imp {a : Step α} {w : World} {Q R : World → Prop} (h : a.Ends w Q)
    (hQR : ∀ w', Q w' → R w') : a.Ends w R := by
  unfold Ends at h ⊢
  split at h
  · exact hQR _ h
  · exact h

theorem ends_throw (failure : Failure) (w : World) (Q : World → Prop) :
    (throw failure : Step α).Ends w Q := rfl

theorem looks_pure (x : α) : (pure x : Step α).Looks := fun _ => rfl

theorem run_pure (x : α) (w : World) : (pure x : Step α).run w = (.ok x, w) := rfl

theorem run_get (w : World) : (get : Step World).run w = (.ok w, w) := rfl

theorem run_print (text : String) (w : World) :
    (print text).run w = (.ok (), { w with printed := w.printed ++ text }) := rfl

theorem run_readText (path : String) (failure : Failure) (w : World) :
    (readText path failure).run w = match Invocation.textOf? w.disk.read? path with
      | some text => (.ok text, w)
      | none => (.error failure, w) := by
  simp only [readText, run_bind, run_get]
  cases Invocation.textOf? w.disk.read? path <;> rfl

theorem looks_readText (path : String) (failure : Failure) : (readText path failure).Looks := by
  intro w
  unfold Ends
  rw [run_readText]
  cases Invocation.textOf? w.disk.read? path <;> rfl

theorem run_write (path text : String) (w : World) :
    (write path text).run w = match w.disk.write? path text.toUTF8 with
      | some disk => (.ok (), { w with disk })
      | none => (.error (.unwritable path), w) := by
  simp only [write, run_bind, run_get]
  cases w.disk.write? path text.toUTF8 <;> rfl

theorem ends_print (text : String) (w : World) :
    (print text).Ends w fun w' => w'.disk = w.disk := rfl

/-- **A file is written or nothing is changed.** -/
theorem ends_write (path text : String) (w : World) :
    (write path text).Ends w fun w' => w.disk.AgreesOff w'.disk path := by
  unfold Ends
  rw [run_write]
  cases hwrite : w.disk.write? path text.toUTF8 with
  | none => rfl
  | some disk => exact Disk.agreesOff_of_write? hwrite

end Step

/-! ## The steps of a command -/

/-- The file that a task writes to, if it writes to one. -/
def Task.output? : Task → Option String
  | .dot _ _ _ _ output => output
  | _ => none

/-- **A disk is kept but for the output of a task.** -/
def Task.Keeps (task : Task) (d d' : Disk) : Prop :=
  d' = d ∨ ∃ path, task.output? = some path ∧ d.AgreesOff d' path

namespace Invocation

variable {i : Invocation} {environment : Option String} {settings : FileSettings}

theorem looks_loadSettings (i : Invocation) (environment : Option String) :
    (i.loadSettings environment).Looks := by
  intro w
  unfold loadSettings
  cases i.configPath? environment with
  | none => exact Step.looks_pure _ w
  | some path =>
    refine Step.Ends.bind (Step.looks_readText _ _) fun text => ?_
    cases FileSettings.ofText? text with
    | none => exact Step.ends_throw ..
    | some settings => exact Step.looks_pure _ w

theorem looks_loadGraph (i : Invocation) (settings : FileSettings) :
    (i.loadGraph settings).Looks := by
  refine fun w => Step.Ends.bind (Step.looks_readText _ _) fun text => ?_
  cases TypeGraph.ofJson (i.scanSettings settings) text with
  | error reason => exact Step.ends_throw ..
  | ok g => exact Step.looks_pure _ w

/-- A task prints or writes as its last step. -/
theorem doTask_eq (task : Task) (settings : FileSettings) (g : TypeGraph) :
    doTask task settings g = match taskEffect task settings g with
      | .ok effect => effect.step
      | .error failure => throw failure := by
  match task with
  | .list none json => rfl
  | .list (some kind) json => rfl
  | .query question name json => rfl
  | .origins name json => rfl
  | .dot width height noAttributes noRoutines output =>
    simp only [doTask, draw, taskEffect]
    cases (diagramSettings settings width height noAttributes noRoutines).problem? with
    | some problem => rfl
    | none => cases output <;> rfl

/-- It fails only if there is no canvas for a diagram. -/
theorem exists_dot_of_error {task : Task} {g : TypeGraph} {failure : Failure}
    (h : taskEffect task settings g = .error failure) :
    ∃ width height noAttributes noRoutines output problem,
      task = .dot width height noAttributes noRoutines output
        ∧ (diagramSettings settings width height noAttributes noRoutines).problem? = some problem
        ∧ failure = .badDiagram problem := by
  match task with
  | .list none json => cases h
  | .list (some kind) json => cases h
  | .query question name json => cases h
  | .origins name json => cases h
  | .dot width height noAttributes noRoutines output =>
    simp only [taskEffect] at h
    split at h
    · next problem hproblem =>
      cases h
      exact ⟨width, height, noAttributes, noRoutines, output, problem, rfl, hproblem, rfl⟩
    · cases output <;> cases h

/-- It writes only a diagram, and only to its output. -/
theorem exists_dot_of_write {task : Task} {g : TypeGraph} {path text : String}
    (h : taskEffect task settings g = .ok (.write path text)) :
    ∃ width height noAttributes noRoutines,
      task = .dot width height noAttributes noRoutines (some path)
        ∧ (diagramSettings settings width height noAttributes noRoutines).problem? = none := by
  match task with
  | .list none json => cases h
  | .list (some kind) json => cases h
  | .query question name json => cases h
  | .origins name json => cases h
  | .dot width height noAttributes noRoutines output =>
    simp only [taskEffect] at h
    split at h
    · cases h
    · next hproblem =>
      cases output with
      | none => cases h
      | some path =>
        cases h
        exact ⟨width, height, noAttributes, noRoutines, rfl, hproblem⟩

theorem ends_doTask (task : Task) (settings : FileSettings) (g : TypeGraph) (w : World) :
    (doTask task settings g).Ends w fun w' => task.Keeps w.disk w'.disk := by
  rw [doTask_eq]
  cases heffect : taskEffect task settings g with
  | error failure => exact Step.ends_throw ..
  | ok effect =>
    cases effect with
    | print text => exact (Step.ends_print text w).imp fun _ => .inl
    | write path text =>
      obtain ⟨width, height, noAttributes, noRoutines, rfl, -⟩ := exists_dot_of_write heffect
      exact (Step.ends_write path text w).imp fun _ hoff => .inr ⟨path, rfl, hoff⟩

/-- **A command does all or nothing**: if it fails, the world is as it was found, and
otherwise the disk is kept but for the output of the task. -/
theorem ends_steps (i : Invocation) (environment : Option String) (w : World) :
    (i.steps environment).Ends w fun w' => i.task.Keeps w.disk w'.disk :=
  Step.Ends.bind (i.looks_loadSettings environment) fun settings =>
    Step.Ends.bind (i.looks_loadGraph settings) fun g => ends_doTask i.task settings g w

/-! ## Working out the effect first -/

theorem run_loadSettings (i : Invocation) (environment : Option String) (w : World) :
    (i.loadSettings environment).run w = (i.fileSettings environment w.disk.read?, w) := by
  unfold loadSettings fileSettings
  cases i.configPath? environment with
  | none => rfl
  | some path =>
    simp only [Step.run_bind, Step.run_readText]
    cases textOf? w.disk.read? path with
    | none => rfl
    | some text =>
      dsimp only
      cases FileSettings.ofText? text <;> rfl

/-- **The steps come to the effect**, carried out as the last one. -/
theorem run_steps (i : Invocation) (environment : Option String) (w : World) :
    (i.steps environment).run w = match i.effect environment w.disk.read? with
      | .ok effect => effect.step.run w
      | .error failure => (.error failure, w) := by
  simp only [steps, Step.run_bind, run_loadSettings, effect, loadGraph, Step.run_readText,
    doTask_eq]
  cases i.fileSettings environment w.disk.read? with
  | error failure => rfl
  | ok settings =>
    dsimp only [bind, Except.bind]
    cases textOf? w.disk.read? i.records with
    | none => rfl
    | some text =>
      dsimp only
      cases TypeGraph.ofJson (i.scanSettings settings) text with
      | error reason => rfl
      | ok g =>
        dsimp only [Step.run_pure]
        cases taskEffect i.task settings g <;> rfl

end Invocation

/-- **A run is a session**: working out the effect first and carrying it out afterwards comes
to the same as taking the steps in turn. -/
theorem run_eq_session (words : List String) (environment : Option String) (disk : Disk) :
    run words environment disk = session words environment disk := by
  unfold run session
  cases Invocation.parse words with
  | error stop => rfl
  | ok i =>
    simp only [Invocation.run_steps]
    match i.effect environment disk.read? with
    | .error failure => rfl
    | .ok (.print text) => simp only [Effect.step, Step.run_print, String.empty_append]
    | .ok (.write path text) =>
      simp only [Effect.step, Step.run_write]
      cases disk.write? path text.toUTF8 <;> rfl

/-! ## What goes wrong -/

/-- **A command comes to build its graph**: with settings, and with a text of records that
under these settings makes a graph or does not. -/
structure Builds (i : Invocation) (environment : Option String) (disk : Disk)
    (settings : FileSettings) (built : Except BuildError TypeGraph) : Prop where
  /-- The settings are those of the configuration file. -/
  configured : Configured i environment disk.read? settings
  /-- The records have a text, and it is built from. -/
  exists_text : ∃ text, Invocation.textOf? disk.read? i.records = some text
    ∧ TypeGraph.ofJson (i.scanSettings settings) text = built

/-- **What is wrong when a command fails**: with its files, with the graph, with the diagram,
or with the place to write to. -/
inductive GoesWrong (i : Invocation) (environment : Option String) (disk : Disk) :
    Failure → Prop
  /-- The configuration file is absent or is not text. -/
  | unreadableConfig {path : String} (hpath : i.configPath? environment = some path)
    (htext : Invocation.textOf? disk.read? path = none) :
    GoesWrong i environment disk (.unreadableConfig path)
  /-- It has no settings in it. -/
  | invalidConfig {path text : String} (hpath : i.configPath? environment = some path)
    (htext : Invocation.textOf? disk.read? path = some text)
    (hsettings : FileSettings.ofText? text = none) :
    GoesWrong i environment disk (.invalidConfig path)
  /-- The file with the records is absent or is not text. -/
  | unreadableRecords {settings : FileSettings}
    (hconfigured : Configured i environment disk.read? settings)
    (hrecords : Invocation.textOf? disk.read? i.records = none) :
    GoesWrong i environment disk (.unreadableRecords i.records)
  /-- The records make no graph under the settings. -/
  | noGraph {settings : FileSettings} {reason : BuildError}
    (hbuilds : Builds i environment disk settings (.error reason)) :
    GoesWrong i environment disk (.noGraph i.records reason)
  /-- There is a graph, but no canvas for the diagram. -/
  | badDiagram {settings : FileSettings} {g : TypeGraph} {width height : Option Binary32}
    {noAttributes noRoutines : Bool} {output : Option String} {problem : String}
    (hbuilds : Builds i environment disk settings (.ok g))
    (htask : i.task = .dot width height noAttributes noRoutines output)
    (hproblem : (Invocation.diagramSettings settings width height noAttributes
      noRoutines).problem? = some problem) :
    GoesWrong i environment disk (.badDiagram problem)
  /-- There is a diagram, but it cannot be written. -/
  | unwritable {settings : FileSettings} {g : TypeGraph} {width height : Option Binary32}
    {noAttributes noRoutines : Bool} {path : String}
    (hbuilds : Builds i environment disk settings (.ok g))
    (htask : i.task = .dot width height noAttributes noRoutines (some path))
    (hproblem : (Invocation.diagramSettings settings width height noAttributes
      noRoutines).problem? = none)
    (hplace : ¬ disk.Writable path) :
    GoesWrong i environment disk (.unwritable path)

section GoesWrong

variable {words : List String} {i : Invocation} {environment : Option String} {disk : Disk}
  {settings : FileSettings} {failure : Failure}

theorem configured_of_fileSettings (h : i.fileSettings environment disk.read? = .ok settings) :
    Configured i environment disk.read? settings := by
  unfold Invocation.fileSettings Invocation.configPath? at h
  cases hconfig : i.config with
  | none =>
    cases henvironment : environment with
    | none =>
      simp only [hconfig, henvironment, Option.or_none] at h
      cases h
      exact .default hconfig rfl
    | some path =>
      simp only [hconfig, henvironment, Option.none_or] at h
      split at h
      · cases h
      · next text htext =>
        split at h
        · cases h
        · next hsettings => cases h; exact .inherited hconfig rfl htext hsettings
  | some path =>
    simp only [hconfig, Option.some_or] at h
    split at h
    · cases h
    · next text htext =>
      split at h
      · cases h
      · next hsettings => cases h; exact .named hconfig htext hsettings

theorem goesWrong_of_fileSettings (h : i.fileSettings environment disk.read? = .error failure) :
    GoesWrong i environment disk failure := by
  unfold Invocation.fileSettings at h
  split at h
  · cases h
  · next path hpath =>
    split at h
    · next htext => cases h; exact .unreadableConfig hpath htext
    · next text htext =>
      split at h
      · next hsettings => cases h; exact .invalidConfig hpath htext hsettings
      · cases h

/-- With a graph, a command has the effect of its task. -/
theorem Builds.effect_eq {g : TypeGraph} (h : Builds i environment disk settings (.ok g)) :
    i.effect environment disk.read? = Invocation.taskEffect i.task settings g := by
  obtain ⟨text, hrecords, hbuilt⟩ := h.exists_text
  exact effect_of_built h.configured hrecords hbuilt

/-- **Whatever its task is**, a command goes wrong in the same way, or it comes to the same
graph. -/
theorem goesWrong_or_builds_of_task (i : Invocation) (environment : Option String) (disk : Disk) :
    (∃ failure, ∀ task, GoesWrong { i with task } environment disk failure)
      ∨ ∃ settings g, ∀ task, Builds { i with task } environment disk settings (.ok g) := by
  cases hsettings : i.fileSettings environment disk.read? with
  | error failure =>
    exact .inl ⟨failure, fun task => goesWrong_of_fileSettings (i := { i with task }) hsettings⟩
  | ok settings =>
    have hconfigured : ∀ task, Configured { i with task } environment disk.read? settings :=
      fun task => configured_of_fileSettings (i := { i with task }) hsettings
    cases hrecords : Invocation.textOf? disk.read? i.records with
    | none =>
      exact .inl ⟨.unreadableRecords i.records,
        fun task => .unreadableRecords (hconfigured task) hrecords⟩
    | some text =>
      cases hbuilt : TypeGraph.ofJson (i.scanSettings settings) text with
      | error reason =>
        exact .inl ⟨.noGraph i.records reason,
          fun task => .noGraph ⟨hconfigured task, text, hrecords, hbuilt⟩⟩
      | ok g => exact .inr ⟨settings, g, fun task => ⟨hconfigured task, text, hrecords, hbuilt⟩⟩

/-- A command goes wrong, or it comes to a graph. -/
theorem goesWrong_or_builds (i : Invocation) (environment : Option String) (disk : Disk) :
    (∃ failure, GoesWrong i environment disk failure)
      ∨ ∃ settings g, Builds i environment disk settings (.ok g) := by
  obtain ⟨failure, hwrong⟩ | ⟨settings, g, hbuilds⟩ :=
    goesWrong_or_builds_of_task i environment disk
  · exact .inl ⟨failure, hwrong i.task⟩
  · exact .inr ⟨settings, g, hbuilds i.task⟩

/-- **A command that goes wrong fails** with what is wrong, and changes nothing. -/
theorem GoesWrong.run_eq (h : GoesWrong i environment disk failure)
    (hparse : Invocation.parse words = .ok i) :
    run words environment disk = (.ofFailure failure, disk) := by
  cases h with
  | unreadableConfig hpath htext =>
    refine run_of_failure hparse ?_
    simp only [Invocation.effect, Invocation.fileSettings, hpath, htext, bind, Except.bind]
  | invalidConfig hpath htext hsettings =>
    refine run_of_failure hparse ?_
    simp only [Invocation.effect, Invocation.fileSettings, hpath, htext, hsettings, bind,
      Except.bind]
  | unreadableRecords hconfigured hrecords =>
    refine run_of_failure hparse ?_
    simp only [Invocation.effect, Invocation.fileSettings_eq hconfigured, hrecords, bind,
      Except.bind]
  | noGraph hbuilds =>
    obtain ⟨text, hrecords, hbuilt⟩ := hbuilds.exists_text
    exact run_of_failure hparse (effect_of_not_built hbuilds.configured hrecords hbuilt)
  | badDiagram hbuilds htask hproblem =>
    refine run_of_failure hparse ?_
    simp only [hbuilds.effect_eq, htask, Invocation.taskEffect, hproblem]
  | unwritable hbuilds htask hproblem hplace =>
    have heffect := hbuilds.effect_eq
    simp only [htask, Invocation.taskEffect, hproblem] at heffect
    simp only [run, hparse, heffect, Disk.write?_eq_none_iff.2 hplace]

/-- A command with a graph that fails has gone wrong with its task. -/
theorem Builds.goesWrong {g : TypeGraph} (h : Builds i environment disk settings (.ok g))
    (hparse : Invocation.parse words = .ok i)
    (hexit : (run words environment disk).1.exit ≠ 0) :
    ∃ failure, GoesWrong i environment disk failure := by
  have heffect := h.effect_eq
  cases htask : Invocation.taskEffect i.task settings g with
  | error failure =>
    obtain ⟨width, height, noAttributes, noRoutines, output, problem, hdot, hproblem, -⟩ :=
      Invocation.exists_dot_of_error htask
    exact ⟨_, .badDiagram h hdot hproblem⟩
  | ok effect =>
    rw [htask] at heffect
    cases effect with
    | print text =>
      rw [run_of_print hparse heffect] at hexit
      exact absurd rfl hexit
    | write path text =>
      obtain ⟨width, height, noAttributes, noRoutines, hdot, hproblem⟩ :=
        Invocation.exists_dot_of_write htask
      refine ⟨_, .unwritable h hdot hproblem fun hwritable => hexit ?_⟩
      rw [(run_of_write hparse heffect hwritable).1]

/-- **A command fails exactly if its words make up no command or it goes wrong.** -/
theorem exit_ne_zero_iff (words : List String) (environment : Option String) (disk : Disk) :
    (run words environment disk).1.exit ≠ 0 ↔
      Invocation.parse words = .error .usage
        ∨ ∃ i failure, Invocation.parse words = .ok i ∧ GoesWrong i environment disk failure := by
  constructor
  · intro hexit
    cases hparse : Invocation.parse words with
    | error stop =>
      cases stop with
      | usage => exact .inl rfl
      | help => simp [run, hparse, Outcome.ofStop] at hexit
      | version => simp [run, hparse, Outcome.ofStop] at hexit
    | ok i =>
      obtain ⟨failure, hwrong⟩ | ⟨settings, g, hbuilds⟩ := goesWrong_or_builds i environment disk
      · exact .inr ⟨i, failure, rfl, hwrong⟩
      · obtain ⟨failure, hwrong⟩ := hbuilds.goesWrong hparse hexit
        exact .inr ⟨i, failure, rfl, hwrong⟩
  · rintro (hparse | ⟨i, failure, hparse, hwrong⟩)
    · simp [run, hparse, Outcome.ofStop]
    · simp [hwrong.run_eq hparse, Outcome.ofFailure]

end GoesWrong

/-! ## All or nothing -/

/-- The file that a command line asks to write to. -/
def Writes (words : List String) (path : String) : Prop :=
  ∃ i, Invocation.parse words = .ok i ∧ i.task.output? = some path

/-- A session that fails leaves nothing behind, and one that ends well at most its output. -/
theorem session_cases (words : List String) (environment : Option String) (disk : Disk) :
    ((session words environment disk).1.exit ≠ 0 ∧ (session words environment disk).1.stdout = ""
        ∧ (session words environment disk).2 = disk)
      ∨ (session words environment disk).1.exit = 0
        ∧ ((session words environment disk).2 = disk ∨ ∃ path, Writes words path
          ∧ disk.AgreesOff (session words environment disk).2 path) := by
  unfold session
  cases hparse : Invocation.parse words with
  | error stop => cases stop <;> simp [Outcome.ofStop]
  | ok i =>
    have hends := i.ends_steps environment { disk }
    unfold Step.Ends at hends
    dsimp only
    split at hends
    · next w hrun =>
      rw [hrun]
      refine .inr ⟨rfl, hends.imp_right ?_⟩
      rintro ⟨path, houtput, hoff⟩
      exact ⟨path, ⟨i, hparse, houtput⟩, hoff⟩
    · next failure w hrun =>
      rw [hrun, hends]
      exact .inl ⟨Nat.one_ne_zero, rfl, rfl⟩

/-- **Commands do all or nothing.** A run comes to the same as a session, in which the steps
of the command are taken in turn. It fails exactly if the words make up no command or something
goes wrong, and then nothing has been printed and the disk is as it was. If it ends well, then
the disk is as it was but for the file that the command line asks to write to. -/
theorem run_atomic (words : List String) (environment : Option String) (disk : Disk) :
    run words environment disk = session words environment disk
      ∧ ((run words environment disk).1.exit ≠ 0 ↔
        Invocation.parse words = .error .usage
          ∨ ∃ i failure, Invocation.parse words = .ok i ∧ GoesWrong i environment disk failure)
      ∧ ((run words environment disk).1.exit ≠ 0 →
        (run words environment disk).1.stdout = "" ∧ (run words environment disk).2 = disk)
      ∧ ((run words environment disk).1.exit = 0 →
        (run words environment disk).2 = disk ∨ ∃ path, Writes words path
          ∧ disk.AgreesOff (run words environment disk).2 path) := by
  refine ⟨run_eq_session words environment disk, exit_ne_zero_iff words environment disk, ?_⟩
  rw [run_eq_session]
  obtain ⟨hexit, hstdout, hdisk⟩ | ⟨hexit, hdisk⟩ := session_cases words environment disk
  · exact ⟨fun _ => ⟨hstdout, hdisk⟩, fun hzero => absurd hzero hexit⟩
  · exact ⟨fun hne => absurd hexit hne, fun _ => hdisk⟩

/-- A disk on which there is a diagram of ships already. -/
def drawnDisk (text : String) : Disk :=
  ⟨(harbourDisk text).files ++ [(["ships.dot"], "digraph".toUTF8)]⟩

/-- On a canvas without a proper width the ships are not drawn, and the old diagram is kept. With
the width mended they are, and the records are still there. -/
theorem run_atomic_harbour :
    ∃ text : String,
      (run ["dot", "r.json", "--output=ships.dot"] (some "scan.toml") (drawnDisk text)).1.exit ≠ 0
        ∧ (run ["dot", "r.json", "--output=ships.dot"] (some "scan.toml")
          (drawnDisk text)).1.stdout = ""
        ∧ (run ["dot", "r.json", "--output=ships.dot"] (some "scan.toml") (drawnDisk text)).2
          = drawnDisk text
        ∧ (run ["dot", "r.json", "--output=ships.dot", "--width=12"] (some "scan.toml")
          (drawnDisk text)).1.exit = 0
        ∧ (run ["dot", "r.json", "--output=ships.dot", "--width=12"] (some "scan.toml")
          (drawnDisk text)).2.read? "r.json" = (drawnDisk text).read? "r.json" := by
  obtain ⟨g, hg, -, -⟩ :=
    @TypeGraph.exists_ofRecords {} harbour (by decide) (by decide) (by decide)
  obtain ⟨text, hdocument⟩ := TypeGraph.exists_document_list harbour
  have htoml : Invocation.textOf? (drawnDisk text).read? "scan.toml"
      = some "[diagram]\nwidth = -1\n" := fromUTF8?_toUTF8 "[diagram]\nwidth = -1\n"
  have htext : Invocation.textOf? (drawnDisk text).read? "r.json" = some text :=
    fromUTF8?_toUTF8 _
  have hconfig : FileSettings.ofText? "[diagram]\nwidth = -1\n"
      = some { diagram := { width := Binary.ofInt (-1) } } := by decide +kernel
  -- both commands build the same graph, under the settings of the configuration file
  have hbuilds : ∀ task, Builds ⟨none, false, "r.json", task⟩ (some "scan.toml") (drawnDisk text)
      { diagram := { width := Binary.ofInt (-1) } } (.ok g) := fun task =>
    { configured := .inherited rfl rfl htoml hconfig
      exists_text := ⟨text, htext, (TypeGraph.ofJson_eq_ofRecords {} harbour hdocument).trans hg⟩ }
  have hspoilt : Invocation.parse ["dot", "r.json", "--output=ships.dot"]
      = .ok ⟨none, false, "r.json", .dot none none false false (some "ships.dot")⟩ := rfl
  have hmended : Invocation.parse ["dot", "r.json", "--output=ships.dot", "--width=12"]
      = .ok ⟨none, false, "r.json", .dot (measure? "12") none false false (some "ships.dot")⟩ :=
    rfl
  obtain ⟨-, hfails, hfailed, -⟩ := run_atomic ["dot", "r.json", "--output=ships.dot"]
    (some "scan.toml") (drawnDisk text)
  obtain ⟨-, -, -, hended⟩ := run_atomic ["dot", "r.json", "--output=ships.dot", "--width=12"]
    (some "scan.toml") (drawnDisk text)
  obtain ⟨problem, hproblem⟩ : ∃ problem, (Invocation.diagramSettings
      { diagram := { width := Binary.ofInt (-1) } } none none false false).problem?
      = some problem := by
    rw [← Option.ne_none_iff_exists', ne_eq, DiagramSettings.problem?_eq_none_iff]
    exact fun hvalid => absurd hvalid.1 (by decide +kernel)
  have hexit := hfails.2 (.inr ⟨_, _, hspoilt, .badDiagram (hbuilds _) rfl hproblem⟩)
  refine ⟨text, hexit, (hfailed hexit).1, (hfailed hexit).2, ?_⟩
  have hvalid : (Invocation.diagramSettings { diagram := { width := Binary.ofInt (-1) } }
      (measure? "12") none false false).problem? = none :=
    (DiagramSettings.problem?_eq_none_iff _).2 ⟨by decide +kernel, by decide +kernel⟩
  have heffect := (hbuilds (.dot (measure? "12") none false false (some "ships.dot"))).effect_eq
  simp only [Invocation.taskEffect, hvalid] at heffect
  have hzero := congrArg Outcome.exit
    (run_of_write hmended heffect ⟨["ships.dot"], rfl, rfl⟩).1
  refine ⟨hzero, ?_⟩
  obtain hsame | ⟨path, ⟨i, hparse, houtput⟩, hoff⟩ := hended hzero
  · rw [hsame]
  · obtain rfl := Except.ok.inj (hmended.symm.trans hparse)
    obtain rfl := Option.some.inj houtput
    have hrecords : (drawnDisk text).locate "r.json" = some ["r.json"] := rfl
    have hships : (drawnDisk text).locate "ships.dot" = some ["ships.dot"] := rfl
    exact hoff.read?_eq "r.json" (by simp [hrecords, hships])

end TypeAtlas
