import GraphScribe.Settings
import Mathlib.Data.List.DropRight
import Mathlib.Data.List.TakeWhile
import Mathlib.Data.Option.Basic

/-!
# Settings by layers

Flags and a file give values for the same keys. Of each key the settings hold what the first layer
says that does not leave it unset, and if both leave it unset, what is built in. The one exception
is a flag of zero jobs: it counts as unset, and yet it keeps the file from being asked.

* `get?_resolve`: what the settings hold for a key.
* `resolve_layers`: values that count as unset may as well be left out, a flag that is set decides,
  and else the file does, all of this but for a flag of zero jobs.
* `not_transparent`: such a flag may not be left out.
* `resolve_fixed`: settings that are given as flags are settled on again.
-/

namespace GraphScribe

/-! ## Keys -/

/-- The keys that flags and files give values for. -/
inductive SettingKey where
  | format
  | outputDir
  | extension
  | decoder
  | jobs
  | diagnostics
deriving DecidableEq, Repr

namespace SettingKey

/-- The values of a key. -/
abbrev Value : SettingKey → Type
  | format | outputDir | extension => String
  | decoder => DecoderKind
  | jobs => Nat
  | diagnostics => SocketAddress

/-- The value counts as unset. -/
def isUnset : (key : SettingKey) → key.Value → Bool
  | format, text | outputDir, text => String.isEmpty text
  | extension, text => (String.toList text).all (· == '.')
  | jobs, count => count == 0
  | decoder, _ | diagnostics, _ => false

/-- A value the way settings hold it: an extension has no dots in front. -/
def held : (key : SettingKey) → key.Value → key.Value
  | extension, text => Settings.withoutDots text
  | format, value | outputDir, value | decoder, value | jobs, value | diagnostics, value => value

/-- A value that settings may hold. -/
structure IsSettled (key : SettingKey) (value : key.Value) : Prop where
  isSet : key.isUnset value = false
  held_eq : key.held value = value

theorem IsSettled.ne {key : SettingKey} {value other : key.Value} (settled : key.IsSettled value)
    (unset : key.isUnset other = true) : value ≠ other := by
  rintro rfl
  cases settled.isSet.symm.trans unset

end SettingKey

/-! ## Layers -/

namespace FileSettings

/-- The value that a layer has for a key. -/
def get? (layer : FileSettings) : (key : SettingKey) → Option key.Value
  | .format => layer.format
  | .outputDir => layer.outputDir
  | .extension => layer.extension
  | .decoder => layer.decoder
  | .jobs => layer.jobs
  | .diagnostics => layer.diagnostics

/-- What a layer says about a key, if it does not leave it unset. -/
def given? (layer : FileSettings) (key : SettingKey) : Option key.Value :=
  ((layer.get? key).filter (!key.isUnset ·)).map key.held

/-- The second layer is the first one but for values that count as unset, some of which it leaves
out. -/
def LeavesOut (layer layer' : FileSettings) : Prop :=
  ∀ key, layer'.get? key = layer.get? key ∨
    layer'.get? key = none ∧ ∃ value, layer.get? key = some value ∧ key.isUnset value = true

end FileSettings

namespace Flags

/-- The values of flags, as those of a layer. -/
def layer (flags : Flags) : FileSettings where
  format := flags.format
  outputDir := flags.outputDir
  extension := flags.extension
  decoder := flags.decoder
  jobs := flags.jobs
  diagnostics := flags.diagnostics

/-- The flag counts as unset, and yet the file is not asked for the key. -/
def Hides (flags : Flags) (key : SettingKey) : Prop :=
  key = .jobs ∧ flags.jobs = some 0

instance (flags : Flags) (key : SettingKey) : Decidable (flags.Hides key) :=
  inferInstanceAs (Decidable (_ ∧ _))

end Flags

namespace Settings

/-- The value that settings hold for a key. -/
def get? (s : Settings) : (key : SettingKey) → Option key.Value
  | .format => some s.format
  | .outputDir => some s.outputDir
  | .extension => some s.extension
  | .decoder => some s.decoder
  | .jobs => some s.jobs
  | .diagnostics => s.diagnostics

/-- The value that is built in for a key. -/
def standard? (parallelism : Nat) : (key : SettingKey) → Option key.Value
  | .format => some Template.defaultSource
  | .outputDir => some "."
  | .extension => some "in"
  | .decoder => some DecoderKind.standard
  | .jobs => some parallelism
  | .diagnostics => none

/-- Settings, given as flags. -/
def asFlags (s : Settings) : Flags where
  format := some s.format
  outputDir := some s.outputDir
  extension := some s.extension
  decoder := some s.decoder
  jobs := some s.jobs
  diagnostics := s.diagnostics
  progress := s.progress

end Settings

/-! ## What a layer says -/

namespace FileSettings

variable {layer layer' : FileSettings} {key : SettingKey}

theorem given?_of_set {value : key.Value} (has : layer.get? key = some value)
    (set : key.isUnset value = false) : layer.given? key = some (key.held value) := by
  rw [given?, has, Option.filter_some, set]
  rfl

theorem given?_of_unset
    (unset : ∀ value, layer.get? key = some value → key.isUnset value = true) :
    layer.given? key = none := by
  cases has : layer.get? key with
  | none => rw [given?, has]; rfl
  | some value => rw [given?, has, Option.filter_some, unset value has]; rfl

/-- Of a key whose values are held as they are. -/
theorem given?_eq_filter (layer : FileSettings) (plain : key.held = id) :
    layer.given? key = (layer.get? key).filter (!key.isUnset ·) := by
  rw [given?, plain, Option.map_id]
  rfl

/-- Of a key whose values all count. -/
theorem given?_eq_get? (layer : FileSettings) (plain : key.held = id)
    (counts : ∀ value, key.isUnset value = false) : layer.given? key = layer.get? key := by
  cases has : layer.get? key with
  | none => exact given?_of_unset fun _ hasValue => by cases has.symm.trans hasValue
  | some value => rw [given?_of_set has (counts value), plain, id]

theorem given?_congr (same : layer'.get? key = layer.get? key) :
    layer'.given? key = layer.given? key := by
  rw [given?, same, given?]

/-- What is left out was not said. -/
theorem LeavesOut.given?_eq (leaves : layer.LeavesOut layer') (key : SettingKey) :
    layer'.given? key = layer.given? key := by
  rcases leaves key with same | ⟨absent, value, has, unset⟩
  · exact given?_congr same
  · have before : layer.given? key = none :=
      given?_of_unset fun other hasOther => Option.some.inj (has.symm.trans hasOther) ▸ unset
    have after : layer'.given? key = none :=
      given?_of_unset fun other hasOther => by cases absent.symm.trans hasOther
    rw [before, after]

end FileSettings

namespace Settings

theorem isEmpty_withoutDots (extension : String) :
    (withoutDots extension).isEmpty = extension.toList.all (· == '.') := by
  rw [Bool.eq_iff_iff, String.isEmpty_iff, List.all_eq_true, withoutDots, ← String.toList_eq_nil_iff,
    String.toList_ofList, List.dropWhile_eq_nil_iff]

theorem nonEmpty_withoutDots (extension? : Option String) :
    nonEmpty (extension?.map withoutDots) =
      (extension?.filter fun text => !text.toList.all (· == '.')).map withoutDots := by
  cases extension? with
  | none => rfl
  | some extension =>
    rw [Option.map_some, nonEmpty, Option.filter_some, Option.filter_some, isEmpty_withoutDots]
    cases extension.toList.all (· == '.') <;> rfl

theorem some_getD_orElse {α : Type} (first second : Option α) (standard : α) :
    some ((first <|> second).getD standard) = (first <|> second <|> some standard) := by
  cases first <;> cases second <;> rfl

theorem counts_eq : (fun count : Nat => decide (0 < count)) = (!· == 0) := by
  funext count
  cases count <;> rfl

/-- A flag of zero jobs is dropped only after it took the place of the file's value. -/
theorem jobs_layered (flag? file? : Option Nat) (standard : Nat) :
    some (((flag? <|> file?).filter (0 < ·)).getD standard) =
      (flag?.filter (!· == 0) <|> (if flag? = some 0 then none else file?.filter (!· == 0)) <|>
        some standard) := by
  rw [counts_eq, ← some_getD_orElse]
  rcases flag? with _ | _ | n <;> rfl

variable {parallelism : Nat} {file file' : FileSettings} {flags flags' : Flags}

/-- The settings hold what the first layer says that says something. -/
theorem get?_resolve (parallelism : Nat) (file : FileSettings) (flags : Flags) (key : SettingKey) :
    (resolve parallelism file flags).get? key =
      (flags.layer.given? key <|> (if flags.Hides key then none else file.given? key) <|>
        standard? parallelism key) := by
  by_cases isJobs : key = .jobs
  · subst isJobs
    have hides : flags.Hides .jobs ↔ flags.jobs = some 0 := and_iff_right rfl
    rw [FileSettings.given?_eq_filter _ rfl, FileSettings.given?_eq_filter _ rfl,
      if_congr hides rfl rfl]
    exact jobs_layered _ _ _
  · have asked : ¬ flags.Hides key := fun hides => isJobs hides.1
    rw [if_neg asked]
    cases key with
    | jobs => exact absurd rfl isJobs
    | format | outputDir =>
      rw [FileSettings.given?_eq_filter _ rfl, FileSettings.given?_eq_filter _ rfl]
      exact some_getD_orElse _ _ _
    | extension =>
      change some _ = _
      rw [resolve, nonEmpty_withoutDots, nonEmpty_withoutDots]
      exact some_getD_orElse _ _ _
    | decoder =>
      rw [FileSettings.given?_eq_get? _ rfl fun _ => rfl,
        FileSettings.given?_eq_get? _ rfl fun _ => rfl]
      exact some_getD_orElse _ _ _
    | diagnostics =>
      rw [FileSettings.given?_eq_get? _ rfl fun _ => rfl,
        FileSettings.given?_eq_get? _ rfl fun _ => rfl]
      change (flags.diagnostics <|> file.diagnostics) =
        (flags.diagnostics <|> file.diagnostics <|> none)
      cases flags.diagnostics <;> cases file.diagnostics <;> rfl

theorem eq_of_get? {s s' : Settings} (progress : s.progress = s'.progress)
    (same : ∀ key, s.get? key = s'.get? key) : s = s' := by
  obtain ⟨format, outputDir, extension, decoder, jobs, diagnostics, progress⟩ := s
  obtain ⟨format', outputDir', extension', decoder', jobs', diagnostics', progress'⟩ := s'
  cases Option.some.inj (same .format)
  cases Option.some.inj (same .outputDir)
  cases Option.some.inj (same .extension)
  cases Option.some.inj (same .decoder)
  cases Option.some.inj (same .jobs)
  cases same .diagnostics
  cases progress
  rfl

/-! ## Values that count as unset -/

/-- A key holds the same where layers leave out what counts as unset, if the file is asked for it as
much as before. -/
theorem get?_resolve_of_leavesOut (fromFile : file.LeavesOut file')
    (fromFlags : flags.layer.LeavesOut flags'.layer) {key : SettingKey}
    (hides : flags'.Hides key ↔ flags.Hides key) :
    (resolve parallelism file' flags').get? key = (resolve parallelism file flags).get? key := by
  rw [get?_resolve, get?_resolve, fromFlags.given?_eq, fromFile.given?_eq, if_congr hides rfl rfl]

/-- The key that a flag may hide does not matter to the others. -/
theorem resolve_eq_iff_jobs (fromFile : file.LeavesOut file')
    (fromFlags : flags.layer.LeavesOut flags'.layer) (progress : flags'.progress = flags.progress) :
    resolve parallelism file' flags' = resolve parallelism file flags ↔
      (resolve parallelism file' flags').jobs = (resolve parallelism file flags).jobs := by
  refine ⟨congrArg Settings.jobs, fun same => eq_of_get? progress fun key => ?_⟩
  by_cases isJobs : key = .jobs
  · subst isJobs
    exact congrArg some same
  · exact get?_resolve_of_leavesOut fromFile fromFlags
      (iff_of_false (fun hides => isJobs hides.1) fun hides => isJobs hides.1)

theorem jobs_of_zero (zero : flags.jobs = some 0) :
    (resolve parallelism file flags).jobs = parallelism := by
  simp [resolve, zero, Option.filter_some]

theorem jobs_of_absent (absent : flags.jobs = none) :
    (resolve parallelism file flags).jobs = (file.given? .jobs).getD parallelism := by
  rw [FileSettings.given?_eq_filter _ rfl, resolve, absent, counts_eq]
  rfl

/-- The machine's number of jobs is settled on where the file asks for it, or for nothing. -/
theorem given?_jobs_getD :
    (file.given? .jobs).getD parallelism = parallelism ↔
      ∀ count, file.jobs = some count → count = 0 ∨ count = parallelism := by
  rw [FileSettings.given?_eq_filter _ rfl]
  change (file.jobs.filter (!· == 0)).getD parallelism = parallelism ↔ _
  rcases file.jobs with _ | _ | count <;> simp [Option.filter_some]

/-- Settings are the same where layers leave out what counts as unset, unless a flag of zero jobs is
left out and the file asks for jobs. -/
theorem resolve_of_leavesOut (fromFile : file.LeavesOut file')
    (fromFlags : flags.layer.LeavesOut flags'.layer) (progress : flags'.progress = flags.progress) :
    resolve parallelism file' flags' = resolve parallelism file flags ↔
      (flags.jobs = some 0 → flags'.jobs = none →
        ∀ count, file.jobs = some count → count = 0 ∨ count = parallelism) := by
  by_cases leftOut : flags.jobs = some 0 ∧ flags'.jobs = none
  · obtain ⟨zero, absent⟩ := leftOut
    rw [resolve_eq_iff_jobs fromFile fromFlags progress, jobs_of_zero zero, jobs_of_absent absent,
      fromFile.given?_eq, given?_jobs_getD]
    exact ⟨fun harmless _ _ => harmless, fun harmless => harmless zero absent⟩
  · have kept : flags'.jobs = some 0 ↔ flags.jobs = some 0 := by
      rcases fromFlags .jobs with same | ⟨absent, count, has, unset⟩
      · exact iff_of_eq (congrArg (· = some 0) same)
      · have zero : flags.jobs = some 0 := has.trans (congrArg some (eq_of_beq unset))
        exact absurd ⟨zero, absent⟩ leftOut
    refine iff_of_true (eq_of_get? progress fun key => ?_)
      fun zero absent => absurd ⟨zero, absent⟩ leftOut
    exact get?_resolve_of_leavesOut fromFile fromFlags (and_congr_right' kept)

/-! ## The layer that decides -/

/-- A layer with a value for a key keeps the layers below it from being asked. -/
theorem resolve_of_set {key : SettingKey} {value : key.Value}
    (has : flags.layer.get? key = some value) (set : key.isUnset value = false)
    (others : ∀ other ≠ key, file'.get? other = file.get? other) :
    resolve parallelism file' flags = resolve parallelism file flags := by
  refine eq_of_get? rfl fun other => ?_
  rw [get?_resolve, get?_resolve]
  by_cases same : other = key
  · subst same
    rw [FileSettings.given?_of_set has set]
    rfl
  · rw [FileSettings.given?_congr (others other same)]

/-- Where the flags leave a key unset, the settings hold the value of the file, if it is not hidden. -/
theorem get?_resolve_of_unset {key : SettingKey} {value : key.Value}
    (unset : ∀ flag, flags.layer.get? key = some flag → key.isUnset flag = true)
    (has : file.get? key = some value) (set : key.isUnset value = false) :
    (resolve parallelism file flags).get? key =
      if flags.Hides key then standard? parallelism key else some (key.held value) := by
  rw [get?_resolve, FileSettings.given?_of_unset unset, FileSettings.given?_of_set has set]
  split <;> rfl

/-- What counts as unset may be left out of the flags and of the file. A flag that is set decides,
and where the flags leave a key unset, the file decides. To all this a flag of zero jobs is the
exception: where it stands the file is not asked for jobs. -/
theorem resolve_layers (parallelism : Nat) (file : FileSettings) (flags : Flags) :
    (∀ file' flags', file.LeavesOut file' → flags.layer.LeavesOut flags'.layer →
      flags'.progress = flags.progress →
      (resolve parallelism file' flags' = resolve parallelism file flags ↔
        (flags.jobs = some 0 → flags'.jobs = none →
          ∀ count, file.jobs = some count → count = 0 ∨ count = parallelism))) ∧
    (∀ key value, flags.layer.get? key = some value → key.isUnset value = false →
      ∀ file', (∀ other ≠ key, file'.get? other = file.get? other) →
        resolve parallelism file' flags = resolve parallelism file flags) ∧
    (∀ key value, (∀ flag, flags.layer.get? key = some flag → key.isUnset flag = true) →
      file.get? key = some value → key.isUnset value = false →
      (resolve parallelism file flags).get? key =
        if flags.Hides key then standard? parallelism key else some (key.held value)) := by
  refine ⟨fun file' flags' fromFile fromFlags progress => ?_, fun key value has set file' others => ?_,
    fun key value unset has set => ?_⟩
  · exact resolve_of_leavesOut fromFile fromFlags progress
  · exact resolve_of_set has set others
  · exact get?_resolve_of_unset unset has set

/-- Empty texts and dots may be left out, whatever the file has in their place. -/
theorem resolve_layers_emptyTexts :
    let file : FileSettings := { format := some "%n", extension := some ".txt", jobs := some 0 }
    let flags : Flags := { format := some "", extension := some "...", jobs := some 3000 }
    let file' : FileSettings := { file with jobs := none }
    let flags' : Flags := { flags with format := none, extension := none }
    resolve 4 file' flags' = resolve 4 file flags ∧
      resolve 4 { file with jobs := some 2000 } flags = resolve 4 file flags ∧
      (resolve 4 file flags).get? .extension = some "txt" := by
  intro file flags file' flags'
  obtain ⟨leavesOut, set, unset⟩ := resolve_layers 4 file flags
  refine ⟨?_, ?_, ?_⟩
  · refine (leavesOut file' flags' (fun key => ?_) (fun key => ?_) rfl).2 (fun zero => by cases zero)
    · cases key with
      | jobs => exact .inr ⟨rfl, 0, rfl, rfl⟩
      | _ => exact .inl rfl
    · cases key with
      | format => exact .inr ⟨rfl, "", rfl, rfl⟩
      | extension => exact .inr ⟨rfl, "...", rfl, rfl⟩
      | _ => exact .inl rfl
  · refine set .jobs 3000 rfl rfl _ fun other isOther => ?_
    cases other with
    | jobs => exact absurd rfl isOther
    | _ => rfl
  · exact unset .extension ".txt" (fun flag has => by cases has; decide) rfl (by decide)

/-- A flag of zero jobs may not be left out where the file asks for jobs. -/
theorem not_transparent :
    ¬ ∀ parallelism file file' flags flags', FileSettings.LeavesOut file file' →
      flags.layer.LeavesOut flags'.layer → flags'.progress = flags.progress →
      resolve parallelism file' flags' = resolve parallelism file flags := by
  intro same
  have fromFlags : (Flags.layer { jobs := some 0 }).LeavesOut (Flags.layer {}) := by
    intro key
    cases key with
    | jobs => exact .inr ⟨rfl, 0, rfl, rfl⟩
    | _ => exact .inl rfl
  have settled := same 1 { jobs := some 3000 } { jobs := some 3000 } { jobs := some 0 } {}
    (fun _ => .inl rfl) fromFlags rfl
  exact absurd (congrArg Settings.jobs settled) (by decide)

/-! ## Settings as flags -/

theorem get?_asFlags (s : Settings) (key : SettingKey) : s.asFlags.layer.get? key = s.get? key := by
  cases key <;> rfl

theorem withoutDots_idempotent (extension : String) :
    withoutDots (withoutDots extension) = withoutDots extension := by
  rw [withoutDots, withoutDots, String.toList_ofList, List.dropWhile_idempotent]

theorem isSettled_held {key : SettingKey} {value : key.Value} (set : key.isUnset value = false) :
    key.IsSettled (key.held value) := by
  cases key with
  | extension =>
    refine ⟨?_, withoutDots_idempotent value⟩
    calc (withoutDots value).toList.all (· == '.')
        = (withoutDots (withoutDots value)).isEmpty := (isEmpty_withoutDots _).symm
      _ = value.toList.all (· == '.') := by rw [withoutDots_idempotent, isEmpty_withoutDots]
      _ = false := set
  | _ => exact ⟨set, rfl⟩

theorem isSettled_of_given? {layer : FileSettings} {key : SettingKey} {value : key.Value}
    (given : layer.given? key = some value) : key.IsSettled value := by
  cases has : layer.get? key with
  | none =>
    rw [FileSettings.given?, has] at given
    cases given
  | some raw =>
    cases unset : key.isUnset raw with
    | true =>
      rw [FileSettings.given?, has, Option.filter_some, unset] at given
      cases given
    | false =>
      rw [FileSettings.given?_of_set has unset] at given
      cases given
      exact isSettled_held unset

theorem isSettled_standard {key : SettingKey} {value : key.Value} (atLeastOne : 1 ≤ parallelism)
    (isStandard : standard? parallelism key = some value) : key.IsSettled value := by
  cases key with
  | jobs =>
    cases isStandard
    exact ⟨beq_eq_false_iff_ne.2 (Nat.ne_of_gt atLeastOne), rfl⟩
  | diagnostics => cases isStandard
  | _ =>
    cases isStandard
    exact ⟨by decide, by decide⟩

/-- What settings hold could be given as it is. -/
theorem isSettled_of_get? {key : SettingKey} {value : key.Value} (atLeastOne : 1 ≤ parallelism)
    (holds : (resolve parallelism file flags).get? key = some value) : key.IsSettled value := by
  rw [get?_resolve] at holds
  rcases (Option.orElse_eq_some _ _ _).1 holds with byFlags | ⟨-, below⟩
  · exact isSettled_of_given? byFlags
  rcases (Option.orElse_eq_some _ _ _).1 below with byFile | ⟨-, isStandard⟩
  · split at byFile
    · cases byFile
    · exact isSettled_of_given? byFile
  · exact isSettled_standard atLeastOne isStandard

/-- Where settings hold nothing for a key, the file says nothing and nothing is built in. -/
theorem get?_eq_none {key : SettingKey}
    (holds : (resolve parallelism file flags).get? key = none) :
    file.given? key = none ∧ standard? parallelism key = none := by
  rw [get?_resolve] at holds
  obtain ⟨byFile, notStandard⟩ :=
    (Option.orElse_eq_none _ _).1 ((Option.orElse_eq_none _ _).1 holds).2
  refine ⟨?_, notStandard⟩
  split at byFile
  case isTrue hides => exact absurd (hides.1 ▸ notStandard) nofun
  case isFalse => exact byFile

theorem one_le_jobs (atLeastOne : 1 ≤ parallelism) :
    1 ≤ (resolve parallelism file flags).jobs := by
  have settled : SettingKey.jobs.IsSettled (resolve parallelism file flags).jobs :=
    isSettled_of_get? atLeastOne rfl
  exact Nat.one_le_iff_ne_zero.2 (settled.ne rfl)

theorem not_hides (atLeastOne : 1 ≤ parallelism) (key : SettingKey) :
    ¬ (resolve parallelism file flags).asFlags.Hides key := by
  rintro ⟨-, zero⟩
  have some : 1 ≤ (resolve parallelism file flags).jobs := one_le_jobs atLeastOne
  rw [Option.some.inj zero] at some
  exact absurd some (by decide)

/-- Given as flags over the same file, settings are settled on again. -/
theorem resolve_asFlags (atLeastOne : 1 ≤ parallelism) (file : FileSettings) (flags : Flags) :
    resolve parallelism file (resolve parallelism file flags).asFlags =
      resolve parallelism file flags := by
  refine eq_of_get? rfl fun key => ?_
  rw [get?_resolve, if_neg (not_hides atLeastOne key)]
  cases holds : (resolve parallelism file flags).get? key with
  | some value =>
    have settled := isSettled_of_get? atLeastOne holds
    rw [FileSettings.given?_of_set ((get?_asFlags _ key).trans holds) settled.isSet,
      settled.held_eq]
    rfl
  | none =>
    have unsaid : (resolve parallelism file flags).asFlags.layer.given? key = none :=
      FileSettings.given?_of_unset fun value has => by
        cases (((get?_asFlags _ key).trans holds).symm.trans has)
    rw [unsaid, (get?_eq_none holds).1, (get?_eq_none holds).2]
    rfl

theorem head?_ne_dot {extension : String} (settled : SettingKey.extension.IsSettled extension) :
    extension.toList.head? ≠ some '.' := by
  have undotted : extension.toList.dropWhile (· == '.') = extension.toList :=
    String.toList_ofList.symm.trans (congrArg String.toList settled.held_eq)
  intro dotted
  obtain ⟨rest, starts⟩ := List.head?_eq_some_iff.1 dotted
  rw [starts] at undotted
  exact List.dropWhile_eq_self_iff.1 undotted (Nat.succ_pos _) rfl

/-- Settings are a fixed point: given as flags over the same file they are settled on again. Their
texts are not empty, their extension has no dot in front, and there is a job at least. -/
theorem resolve_fixed {parallelism : Nat} (atLeastOne : 1 ≤ parallelism) (file : FileSettings)
    (flags : Flags) :
    resolve parallelism file (resolve parallelism file flags).asFlags =
        resolve parallelism file flags ∧
      (resolve parallelism file flags).format ≠ "" ∧
      (resolve parallelism file flags).outputDir ≠ "" ∧
      (resolve parallelism file flags).extension ≠ "" ∧
      (resolve parallelism file flags).extension.toList.head? ≠ some '.' ∧
      1 ≤ (resolve parallelism file flags).jobs := by
  have format : SettingKey.format.IsSettled (resolve parallelism file flags).format :=
    isSettled_of_get? atLeastOne rfl
  have outputDir : SettingKey.outputDir.IsSettled (resolve parallelism file flags).outputDir :=
    isSettled_of_get? atLeastOne rfl
  have extension : SettingKey.extension.IsSettled (resolve parallelism file flags).extension :=
    isSettled_of_get? atLeastOne rfl
  exact ⟨resolve_asFlags atLeastOne file flags, format.ne rfl, outputDir.ne rfl,
    extension.ne rfl, head?_ne_dot extension, one_le_jobs atLeastOne⟩

/-- Dots are stripped once, and zero jobs do not come back as a flag. -/
theorem resolve_fixed_dotted :
    let file : FileSettings :=
      { outputDir := some "", extension := some "...", jobs := some 3000 }
    let flags : Flags := { extension := some "..tar.gz", jobs := some 0 }
    let s := resolve 4 file flags
    1 ≤ 4 ∧ (s.outputDir, s.extension, s.jobs) = (".", "tar.gz", 4) ∧
      resolve 4 file s.asFlags = s := by
  intro file flags s
  exact ⟨by decide, by decide, (resolve_fixed (by decide) file flags).1⟩

end Settings
end GraphScribe
