import GraphScribe.Command
import GraphScribe.Proofs.FileTree.Frame
import Mathlib.Control.Monad.Basic

/-!
# Commands that are rejected before they begin

What can be wrong with a convert command is known before anything is converted: its settings, the
pattern that its inputs are searched with, its format. Each of these defects is a fact about the
command by itself, whatever else is wrong with it; the command looks for them in a fixed order and
reports the first one that it finds. Until then no file is touched.

* `Inputs.resolve_eq_error_iff`: the search for inputs fails only over a pattern in force.
* `Task.effect_of_settings`, `Task.effect_of_pattern`, `Task.effect_of_noInputs`,
  `Task.effect_of_format`, `Task.effect_of_sound`: what a convert command does, by its defects.
* `execute_rejects`: a command with a defect touches no file, and reports the defect that comes first.
-/

namespace GraphScribe

/-! ## The pattern in force -/

namespace Inputs

/-- The pattern that is searched with: files that are given take its place, and an empty one stands
for nothing. -/
def patternInForce? (given : List Path) (pattern? : Option String) : Option String :=
  if given.isEmpty then pattern?.filter (!·.isEmpty) else none

variable {t : FileTree} {given : List Path} {pattern? : Option String}

theorem expand_eq_error_iff {pattern : String} {e : InvalidGlob} :
    expand t pattern = .error e ↔
      ∃ fault, Glob.read pattern.toList = .error fault ∧ e = ⟨pattern, fault⟩ := by
  change _ ↔ ∃ fault, Glob.read (Path.ofString pattern).text = .error fault ∧ _
  simp only [expand]
  rcases Glob.read (Path.ofString pattern).text with fault | glob
  · constructor
    · rintro ⟨⟩
      exact ⟨fault, rfl, rfl⟩
    · rintro ⟨_, ⟨⟩, rfl⟩
      rfl
  · simp only [reduceCtorEq, false_and, exists_false, iff_false]
    intro failed
    split at failed
    · cases failed
    · split at failed
      · cases failed
      · split at failed <;> cases failed

/-- The search for inputs fails over the pattern in force, if that is none. -/
theorem resolve_eq_error_iff {e : InvalidGlob} :
    resolve t given pattern? = .error e ↔
      ∃ pattern fault, patternInForce? given pattern? = some pattern ∧
        Glob.read pattern.toList = .error fault ∧ e = ⟨pattern, fault⟩ := by
  unfold resolve patternInForce?
  cases isGiven : given.isEmpty with
  | false => simp
  | true =>
    cases pattern? with
    | none => simp
    | some pattern =>
      cases empty : pattern.isEmpty with
      | true => simp [Option.filter, empty]
      | false => simp [Option.filter, empty, expand_eq_error_iff]

end Inputs

/-! ## Defects -/

/-- When a convert command looks for a defect, compared with the others. -/
def Failure.rank : Failure → Nat
  | settings _ => 0
  | pattern _ => 1
  | format _ => 2
  | conversion _ => 3

namespace Command

/-- A convert command, with what surrounds it. -/
structure Task where
  env : Environment
  invocation : Invocation
  given : List Path
  pattern? : Option String
  flags : Flags

namespace Task

/-- The settings of the command. -/
def settings (task : Task) : Except DiscoveryError Settings :=
  (FileSettings.discover task.env.files task.invocation.config).map
    (.resolve task.env.parallelism · (flagsOf task.invocation task.flags))

/-- The inputs of the command. -/
def inputs (task : Task) : Except InvalidGlob Inputs :=
  Inputs.resolve task.env.files task.given task.pattern?

/-- The command finds inputs, one at least. -/
def HasInputs (task : Task) : Prop :=
  ∃ inputs, task.inputs = .ok inputs ∧ inputs.paths ≠ []

/-- The command finds that there are no inputs. -/
def HasNoInputs (task : Task) : Prop :=
  ∃ inputs, task.inputs = .ok inputs ∧ inputs.paths = []

/-- What is wrong with the command, one thing at a time: its settings file, the pattern that it
searches with, the format that its settings give. -/
inductive Defect (task : Task) : Failure → Prop
  | settings {e : DiscoveryError} :
    FileSettings.discover task.env.files task.invocation.config = .error e →
    Defect task (.settings e)
  | pattern {pattern : String} {fault : GlobFault} :
    Inputs.patternInForce? task.given task.pattern? = some pattern →
    Glob.read pattern.toList = .error fault → Defect task (.pattern ⟨pattern, fault⟩)
  | format {s : Settings} {e : TemplateError} :
    task.settings = .ok s → Template.compile s.format = .error e → Defect task (.format e)

/-- What the command does. -/
def effect (task : Task) : Effect :=
  convert task.env task.invocation task.given task.pattern? task.flags

end Task

/-! ## Reports -/

/-- What is printed between the records and the report of a failure. -/
def notice : Failure → String
  | .format e => s!"{e.message}\n\n{formatHelp}\n"
  | _ => ""

/-- The command ends in the report of a failure, and nothing but details is told before. -/
structure Reports (o : Outcome) (filter : LogFilter) (failure : Failure) : Prop where
  exitCode : o.exitCode = 1
  output : o.output = ""
  errors : ∃ told : List LogRecord, (∀ r ∈ told, r.level = .debug) ∧
    o.errors = String.join (filter.lines told) ++ notice failure ++ failure.report

/-- The effect is nothing but a failure. -/
structure Refuses (e : Effect) (files : FileTree) (failure : Failure) : Prop where
  failure_eq : e.failure = some failure
  files_eq : e.files = files
  output_eq : e.output = ""
  remarks_eq : ∃ told : List LogRecord, (∀ r ∈ told, r.level = .debug) ∧
    (e.remarks = told.map .record ∧ notice failure = "" ∨
      e.remarks = told.map .record ++ [.text (notice failure)])

theorem join_render_record (filter : LogFilter) (told : List LogRecord) :
    String.join ((told.map Remark.record).map (·.render filter)) =
      String.join (filter.lines told) := by
  induction told with
  | nil => rfl
  | cons r rest ih =>
    simp only [List.map_cons, String.join_cons, ih, LogFilter.lines]
    cases admitted : filter.admits r <;> simp [Remark.render, admitted]

namespace Refuses

variable {e : Effect} {files : FileTree} {failure : Failure}

theorem after (h : Refuses e files failure) {records : List LogRecord}
    (details : ∀ r ∈ records, r.level = .debug) :
    Refuses (e.after (records.map .record)) files failure := by
  obtain ⟨told, detailsToo, remarks⟩ := h.remarks_eq
  refine ⟨h.failure_eq, h.files_eq, h.output_eq, records ++ told, ?_, ?_⟩
  · intro r isTold
    exact (List.mem_append.1 isTold).elim (details r) (detailsToo r)
  · simpa [Effect.after, List.append_assoc] using remarks

theorem files_outcome (h : Refuses e files failure) (filter : LogFilter) :
    (e.outcome filter).files = files := by
  simp [Effect.outcome, h.failure_eq, h.files_eq]

theorem reports (h : Refuses e files failure) (filter : LogFilter) :
    Reports (e.outcome filter) filter failure := by
  obtain ⟨told, details, remarks⟩ := h.remarks_eq
  refine ⟨by simp [Effect.outcome, h.failure_eq], by simp [Effect.outcome, h.failure_eq, h.output_eq],
    told, details, ?_⟩
  rcases remarks with ⟨remarks, silent⟩ | remarks
  · simp only [Effect.outcome, h.failure_eq, remarks, join_render_record, silent,
      String.append_empty]
  · simp only [Effect.outcome, h.failure_eq, remarks, List.map_append, String.join_append,
      join_render_record]
    simp [Remark.render]

end Refuses

/-! ## What a convert command does -/

/-- The records before the search for inputs. -/
def openingRecords (env : Environment) (invocation : Invocation) : List LogRecord :=
  .version :: if FileSettings.usesStandardFile env.files invocation.config
    then [.usesFile FileSettings.standardPath] else []

theorem level_openingRecords (env : Environment) (invocation : Invocation) :
    ∀ r ∈ openingRecords env invocation, r.level = .debug := by
  unfold openingRecords
  split <;> simp [LogRecord.version, LogRecord.usesFile]

theorem level_searchRecords (pattern? : Option String) (inputs : Inputs) :
    ∀ r ∈ searchRecords pattern? inputs, r.level = .debug := by
  unfold searchRecords
  split
  · split <;> simp [LogRecord.matched]
  · simp

namespace Task

variable {task : Task}

theorem effect_of_settings {e : DiscoveryError}
    (rejected : FileSettings.discover task.env.files task.invocation.config = .error e) :
    Refuses task.effect task.env.files (.settings e) := by
  have refused : Refuses { failure := some (.settings e), files := task.env.files }
      task.env.files (.settings e) := ⟨rfl, rfl, rfl, [], by simp, .inl ⟨rfl, rfl⟩⟩
  simpa only [effect, convert, rejected, openingRecords] using
    refused.after (level_openingRecords task.env task.invocation)

theorem effect_of_pattern {file : FileSettings} {e : InvalidGlob}
    (found : FileSettings.discover task.env.files task.invocation.config = .ok file)
    (rejected : task.inputs = .error e) : Refuses task.effect task.env.files (.pattern e) := by
  have refused : Refuses { failure := some (.pattern e), files := task.env.files }
      task.env.files (.pattern e) := ⟨rfl, rfl, rfl, [], by simp, .inl ⟨rfl, rfl⟩⟩
  rw [inputs] at rejected
  simpa only [effect, convert, found, rejected, openingRecords] using
    refused.after (level_openingRecords task.env task.invocation)

/-- With settings and inputs, what is left to do is to convert the inputs. -/
theorem effect_of_inputs {file : FileSettings} {inputs : Inputs}
    (found : FileSettings.discover task.env.files task.invocation.config = .ok file)
    (resolved : task.inputs = .ok inputs) :
    task.effect = Effect.after ((openingRecords task.env task.invocation).map .record)
      (Effect.after ((searchRecords task.pattern? inputs).map .record)
        (convertInputs task.env
          (.resolve task.env.parallelism file (flagsOf task.invocation task.flags))
          inputs.paths)) := by
  rw [Task.inputs] at resolved
  simp only [effect, convert, found, resolved, openingRecords]

theorem settings_eq_ok {s : Settings} :
    task.settings = .ok s ↔
      ∃ file, FileSettings.discover task.env.files task.invocation.config = .ok file ∧
        s = .resolve task.env.parallelism file (flagsOf task.invocation task.flags) := by
  unfold settings
  cases FileSettings.discover task.env.files task.invocation.config <;> simp [Except.map, eq_comm]

theorem effect_of_format {s : Settings} {inputs : Inputs} {e : TemplateError}
    (set : task.settings = .ok s) (resolved : task.inputs = .ok inputs) (some : inputs.paths ≠ [])
    (rejected : Template.compile s.format = .error e) :
    Refuses task.effect task.env.files (.format e) := by
  obtain ⟨file, found, rfl⟩ := settings_eq_ok.1 set
  have refused : Refuses (refuseFormat task.env.files e) task.env.files (.format e) :=
    ⟨rfl, rfl, rfl, [], by simp, .inr rfl⟩
  rw [effect_of_inputs found resolved, convertInputs, if_neg (by simpa using some), rejected]
  exact (refused.after (level_searchRecords task.pattern? inputs)).after
    (level_openingRecords task.env task.invocation)

theorem effect_of_noInputs {file : FileSettings} {inputs : Inputs}
    (found : FileSettings.discover task.env.files task.invocation.config = .ok file)
    (resolved : task.inputs = .ok inputs) (none : inputs.paths = []) :
    task.effect.failure = .none ∧ task.effect.files = task.env.files := by
  rw [effect_of_inputs found resolved, none]
  exact ⟨rfl, rfl⟩

/-- A command with inputs and without defects is a conversion. -/
theorem effect_of_sound {s : Settings} {inputs : Inputs} {template : Template}
    (set : task.settings = .ok s) (resolved : task.inputs = .ok inputs) (some : inputs.paths ≠ [])
    (compiled : Template.compile s.format = .ok template) :
    task.effect.files =
      ((conversionOf s template).run task.env.files inputs.paths false).tree := by
  obtain ⟨file, found, rfl⟩ := settings_eq_ok.1 set
  rw [effect_of_inputs found resolved, convertInputs, if_neg (by simpa using some), compiled]
  simp only [Effect.after, effectOf]
  split <;> rfl

/-! ## The first defect -/

/-- What a command does about its defects. -/
structure Settles (task : Task) (filter : LogFilter) (o : Outcome) : Prop where
  /-- With a defect, or without inputs, no file is touched. -/
  untouched : (∃ f, task.Defect f) ∨ task.HasNoInputs → o.files = task.env.files
  /-- Of several defects the first one is reported; that of a format counts if there are inputs. -/
  reported : ∀ f, task.Defect f → (∀ g, task.Defect g → f.rank ≤ g.rank) →
    (∀ e, f = .format e → task.HasInputs) → Reports o filter f
  /-- Without inputs no format is wrong. -/
  idle : task.HasNoInputs → (∀ f, task.Defect f → ∃ e, f = .format e) → o.exitCode = 0
  /-- With inputs and without defects the inputs are converted. -/
  converted : (∀ f, ¬ task.Defect f) → task.HasInputs → ∃ s template inputs,
    task.settings = .ok s ∧ Template.compile s.format = .ok template ∧ task.inputs = .ok inputs ∧
      o.files = ((conversionOf s template).run task.env.files inputs.paths false).tree

theorem inputs_eq_error {e : InvalidGlob} : task.inputs = .error e ↔ task.Defect (.pattern e) := by
  rw [inputs, Inputs.resolve_eq_error_iff]
  constructor
  · rintro ⟨pattern, fault, inForce, rejected, rfl⟩
    exact .pattern inForce rejected
  · rintro ⟨⟩
    exact ⟨_, _, ‹_›, ‹_›, rfl⟩

theorem settles (task : Task) (filter : LogFilter) :
    task.Settles filter (task.effect.outcome filter) where
  untouched := by
    intro reason
    rcases found : FileSettings.discover task.env.files task.invocation.config with e | file
    · exact (effect_of_settings found).files_outcome filter
    rcases resolved : task.inputs with e | inputs
    · exact (effect_of_pattern found resolved).files_outcome filter
    by_cases none : inputs.paths = []
    · obtain ⟨succeeds, untouched⟩ := effect_of_noInputs found resolved none
      simp [Effect.outcome, succeeds, untouched]
    rcases reason with ⟨f, defect⟩ | ⟨_, same, none'⟩
    · cases defect with
      | settings rejected => cases rejected.symm.trans found
      | pattern inForce rejected =>
        cases (inputs_eq_error.2 (.pattern inForce rejected)).symm.trans resolved
      | format set rejected =>
        exact (effect_of_format set resolved none rejected).files_outcome filter
    · cases same.symm.trans resolved
      exact absurd none' none
  reported := by
    intro f defect first counts
    -- Each case may use that no defect comes before this one in the order of the search.
    cases defect with
    | settings rejected => exact (effect_of_settings rejected).reports filter
    | pattern inForce rejected =>
      rcases found : FileSettings.discover task.env.files task.invocation.config with e | file
      · exact absurd (first _ (.settings found)) (Nat.not_succ_le_zero _)
      · exact (effect_of_pattern found
          (inputs_eq_error.2 (.pattern inForce rejected))).reports filter
    | format set rejected =>
      obtain ⟨inputs, resolved, some⟩ := counts _ rfl
      exact (effect_of_format set resolved some rejected).reports filter
  idle := by
    rintro ⟨inputs, resolved, none⟩ onlyFormat
    rcases found : FileSettings.discover task.env.files task.invocation.config with e | file
    · obtain ⟨_, other⟩ := onlyFormat _ (.settings found)
      cases other
    · simp [Effect.outcome, (effect_of_noInputs found resolved none).1]
  converted := by
    rintro sound ⟨inputs, resolved, some⟩
    rcases set : task.settings with e | s
    · unfold settings at set
      rcases found : FileSettings.discover task.env.files task.invocation.config with e | file
      · exact absurd (.settings found) (sound _)
      · rw [found] at set
        cases set
    rcases compiled : Template.compile s.format with e | template
    · exact absurd (.format set compiled) (sound _)
    refine ⟨s, template, inputs, rfl, compiled, resolved, ?_⟩
    rw [← effect_of_sound set resolved some compiled]
    simp only [Effect.outcome]
    split <;> rfl

end Task

/-- No command but a conversion without defects touches a file. The defects of a conversion are
looked for in the order of its settings, its pattern and, if there are inputs, its format, and the
first one is reported. -/
theorem execute_rejects (env : Environment) (words : List String) :
    (∀ fault, Invocation.read words = .error fault →
      (execute env words).files = env.files) ∧
    ∀ invocation, Invocation.read words = .ok invocation →
      (∀ format, invocation.request = .check format → (execute env words).files = env.files) ∧
      (invocation.request = .version → (execute env words).files = env.files) ∧
      ∀ given pattern? flags, invocation.request = .convert given pattern? flags →
        Task.Settles ⟨env, invocation, given, pattern?, flags⟩
          (filterOf env.logFilter invocation.verbose) (execute env words) := by
  refine ⟨fun fault unread => ?_, fun invocation isRead => ⟨?_, ?_, ?_⟩⟩
  · unfold execute
    rw [unread]
    split
    · next isRead => cases isRead
    · rfl
    · rfl
  · intro format asked
    simp only [execute, isRead, effect, asked, check, Effect.outcome]
    cases Template.compile format <;> rfl
  · intro asked
    simp only [execute, isRead, effect, asked]
    rfl
  · intro given pattern? flags asked
    simp only [execute, isRead, effect, asked]
    exact Task.settles ⟨env, invocation, given, pattern?, flags⟩ _

/-- One document, and a settings file of no use. -/
def oneDocument : Environment where
  files := .ofFiles [(.ofString "g.xml", Bytes.ofAscii "<g/>"),
    (.ofString "bad.toml", Bytes.ofAscii "colour = 1")]
  parallelism := 1
  listen := fun _ => .error .unsupported

/-- An opening bracket alone is no pattern. -/
theorem read_openBracket : Glob.read "[".toList = .error .unclosedClass := by
  simp [Glob.read, Glob.readFrom, Glob.readClass, Glob.readRanges, Except.map]

/-- A pattern that is none hides a format that is none, but not where a file is given; and without
inputs there is nothing to report. -/
theorem execute_rejects_pattern :
    let filter := filterOf none false
    let fault := InvalidGlob.mk "[" .unclosedClass
    let verb := TemplateError.invalidVerb "%5z".toList 'z'
    Reports (execute oneDocument ["convert", "-g", "[", "-f", "%5z"]) filter (.pattern fault) ∧
      Reports (execute oneDocument ["convert", "g.xml", "-g", "[", "-f", "%5z"]) filter
        (.format verb) ∧
      (execute oneDocument ["convert", "-f", "%5z"]).exitCode = 0 := by
  intro filter fault verb
  let flags : Flags := { format := some "%5z" }
  have found : FileSettings.discover oneDocument.files none = .ok {} := by decide +kernel
  have rejected : Template.compile "%5z" = .error verb := by decide +kernel
  refine ⟨?_, ?_, ?_⟩
  · have settled := ((execute_rejects oneDocument ["convert", "-g", "[", "-f", "%5z"]).2
      ⟨.convert [] (some "[") flags, false, none⟩ (by decide +kernel)).2.2 _ _ _ rfl
    refine settled.reported _ (.pattern rfl read_openBracket) ?_ nofun
    rintro g (unfound | _ | _)
    · cases unfound.symm.trans found
    · exact Nat.le_refl _
    · exact Nat.le_succ _
  · have settled := ((execute_rejects oneDocument ["convert", "g.xml", "-g", "[", "-f", "%5z"]).2
      ⟨.convert [.ofString "g.xml"] (some "[") flags, false, none⟩ (by decide +kernel)).2.2 _ _ _ rfl
    refine settled.reported _ (.format (congrArg (Except.map _) found) rejected) ?_
      fun _ _ => ⟨_, rfl, by simp⟩
    rintro g (unfound | inForce | _)
    · cases unfound.symm.trans found
    · cases inForce
    · exact Nat.le_refl _
  · have settled := ((execute_rejects oneDocument ["convert", "-f", "%5z"]).2
      ⟨.convert [] none flags, false, none⟩ (by decide +kernel)).2.2 _ _ _ rfl
    refine settled.idle ⟨_, rfl, rfl⟩ ?_
    rintro g (unfound | inForce | _)
    · cases unfound.symm.trans found
    · cases inForce
    · exact ⟨_, rfl⟩

/-- A pattern that is none does not matter where a file is given. -/
theorem not_rejects_pattern :
    ¬ ∀ env words invocation given pattern flags,
      Invocation.read words = .ok invocation →
      invocation.request = .convert given (some pattern) flags →
      (∃ fault, Glob.read pattern.toList = .error fault) →
      (execute env words).files = env.files := by
  intro untouched
  have same := untouched oneDocument ["convert", "g.xml", "-g", "["]
    ⟨.convert [.ofString "g.xml"] (some "[") {}, false, none⟩ _ _ _
    (by decide +kernel) rfl ⟨.unclosedClass, read_openBracket⟩
  have written : (execute oneDocument ["convert", "g.xml", "-g", "["]).files.isFile
      (.ofString "g.in") = true := by decide +kernel
  rw [same] at written
  revert written
  decide +kernel

end Command
end GraphScribe
