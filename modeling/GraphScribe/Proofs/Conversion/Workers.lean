import GraphScribe.Proofs.Conversion.Sequential

/-!
# Workers

Several workers share the inputs of a run. A worker takes an input, looks whether a stop was asked
for, looks whether an input failed, reads the input, writes its output, and records what came of it.
Each of these is a step of its own. Steps of different workers come in any order, and so does the
request to stop.

* `Advance`: what a worker does next with its input.
* `Step`, `Reaches`: what happens to all inputs, one step at a time.
* `ledger`: a counter shows what the inputs contributed to it.
* `sound_of_reaches`: how the workers and the flags that they share hang together.
-/

namespace GraphScribe.Conversion

/-! ## Stages of an input -/

/-- How far an input has come, with what is known of it by then. -/
inductive Stage where
  | waiting
  /-- A worker has it. -/
  | taken
  /-- No stop was asked for when its worker looked. -/
  | wanted
  /-- No input had failed when its worker looked. -/
  | allowed
  | decoded (g : Graph)
  /-- Its output is there. -/
  | written (bytes : Nat)
  /-- The statistics have it. -/
  | counted (bytes : Nat)
  | converted (bytes : Nat)
  /-- It cannot be converted. -/
  | refused (e : ConversionError)
  /-- The statistics have it as failed. -/
  | noted (e : ConversionError)
  /-- The other workers can see that it failed. -/
  | raised (e : ConversionError)
  | failed (e : ConversionError)
  | skipped

namespace Stage

/-- A worker is at it. -/
def isBusy : Stage → Bool
  | taken | wanted | allowed | decoded _ | written _ | counted _ => true
  | refused _ | noted _ | raised _ => true
  | _ => false

/-- No worker will do anything more to it. -/
def isDone : Stage → Bool
  | converted _ | failed _ | skipped => true
  | _ => false

/-- It was opened, or that was tried. -/
def isAttempted : Stage → Bool
  | waiting | taken | wanted | allowed | skipped => false
  | _ => true

/-- Why it cannot be converted. -/
def error? : Stage → Option ConversionError
  | refused e | noted e | raised e | failed e => some e
  | _ => none

/-- The length of its output, once that is there. -/
def output? : Stage → Option Nat
  | written bytes | counted bytes | converted bytes => some bytes
  | _ => none

/-- Its failure can be seen by all workers. -/
def isRaised : Stage → Bool
  | raised _ | failed _ => true
  | _ => false

/-- Its worker is bound to convert it or has failed to. -/
def isBound : Stage → Bool
  | waiting | taken | wanted | converted _ | skipped => false
  | _ => true

/-- What it adds to the number of converted inputs in the statistics. -/
def conversions : Stage → Nat
  | counted _ | converted _ => 1
  | _ => 0

/-- What it adds to the number of converted inputs that the run itself keeps. -/
def tally : Stage → Nat
  | converted _ => 1
  | _ => 0

/-- What it adds to the number of failed inputs. -/
def failures : Stage → Nat
  | noted _ | raised _ | failed _ => 1
  | _ => 0

/-- What it adds to the number of bytes written. -/
def bytes : Stage → Nat
  | counted bytes | converted bytes => bytes
  | _ => 0

/-- A worker that is bound to an input is at it, unless the input failed. -/
theorem isBusy_of_isBound {stage : Stage} (bound : stage.isBound = true)
    (fine : ¬ stage.error?.isSome = true) : stage.isBusy = true := by
  cases stage with
  | allowed | decoded | written | counted => rfl
  | refused | noted | raised | failed => exact absurd rfl fine
  | waiting | taken | wanted | converted | skipped => cases bound

/-- All workers can see that an input failed when its worker has left it. -/
theorem isRaised_of_error {stage : Stage} (fails : stage.error?.isSome = true)
    (left : ¬ stage.isBusy = true) : stage.isRaised = true := by
  cases stage with
  | failed => rfl
  | refused | noted | raised => exact absurd rfl left
  | waiting | taken | wanted | allowed | decoded | written | counted | converted
  | skipped => cases fails

theorem isBound_of_error {stage : Stage} (fails : stage.error?.isSome = true) :
    stage.isBound = true := by
  cases stage with
  | refused | noted | raised | failed => rfl
  | waiting | taken | wanted | allowed | decoded | written | counted | converted
  | skipped => cases fails

theorem tally_le_one (stage : Stage) : stage.tally ≤ 1 := by
  cases stage <;> simp [tally]

theorem failures_le (stage : Stage) :
    stage.failures ≤ if stage.error?.isSome = true then 1 else 0 := by
  cases stage <;> simp [failures, error?]

end Stage

/-! ## Steps -/

/-- What all workers share: the means of conversion with the files and the statistics, the two
flags, and what will be the result. -/
structure Board where
  progress : Progress
  stopAsked : Bool := false
  failed : Bool := false
  converted : Nat := 0
  firstError : Option ConversionError := none

/-- What a worker does next with its input. -/
inductive Advance (c : Conversion) (input : Path) : Board → Stage → Board → Stage → Prop where
  | leave {b : Board} (asked : b.stopAsked = true) : Advance c input b .taken b .skipped
  | want {b : Board} (notAsked : b.stopAsked = false) : Advance c input b .taken b .wanted
  | drop {b : Board} (failed : b.failed = true) : Advance c input b .wanted b .skipped
  | allow {b : Board} (noneFailed : b.failed = false) : Advance c input b .wanted b .allowed
  | misread {b : Board} {e : ConversionError} {p : Progress}
      (read : c.readInput b.progress input = (.error e, p)) :
      Advance c input b .allowed { b with progress := p } (.refused e)
  | decode {b : Board} {g : Graph} {p : Progress}
      (read : c.readInput b.progress input = (.ok g, p)) :
      Advance c input b .allowed { b with progress := p } (.decoded g)
  | miswrite {b : Board} {g : Graph} {e : ConversionError} {p : Progress}
      (wrote : c.writeOutput b.progress input g = (.error e, p)) :
      Advance c input b (.decoded g) { b with progress := p } (.refused e)
  | write {b : Board} {g : Graph} {bytes : Nat} {p : Progress}
      (wrote : c.writeOutput b.progress input g = (.ok bytes, p)) :
      Advance c input b (.decoded g) { b with progress := p } (.written bytes)
  | count {b : Board} {bytes : Nat} :
      Advance c input b (.written bytes)
        { b with progress :=
          { b.progress with statistics := b.progress.statistics.recordConverted bytes } }
        (.counted bytes)
  | convert {b : Board} {bytes : Nat} :
      Advance c input b (.counted bytes) { b with converted := b.converted + 1 }
        (.converted bytes)
  | note {b : Board} {e : ConversionError} :
      Advance c input b (.refused e)
        { b with progress :=
          { b.progress with statistics := b.progress.statistics.recordFailed } }
        (.noted e)
  | raise {b : Board} {e : ConversionError} :
      Advance c input b (.noted e) { b with failed := true } (.raised e)
  | fail {b : Board} {e : ConversionError} :
      Advance c input b (.raised e) { b with firstError := b.firstError.or (some e) } (.failed e)

/-- So many workers at some inputs. Inputs go by their position in the list. -/
structure Crew (inputs : List Path) (workers : Nat) where
  board : Board
  stage : Fin inputs.length → Stage
  /-- The worker that took an input. -/
  worker : Fin inputs.length → Option (Fin workers)

variable {c : Conversion} {made : FileTree} {inputs : List Path} {workers : Nat}
  {s s' : Crew inputs workers}

/-- Before any input is taken, with the directory for outputs made. -/
def Crew.start (c : Conversion) (made : FileTree) (inputs : List Path) (workers : Nat) :
    Crew inputs workers where
  board := { progress := c.begin made inputs }
  stage _ := .waiting
  worker _ := none

namespace Crew

/-- What can happen next: a stop is asked for, a worker that is at no input takes one that waits, or
a worker goes on with its input. -/
inductive Step (c : Conversion) : Crew inputs workers → Crew inputs workers → Prop where
  | stop (s : Crew inputs workers) :
      Step c s { s with board := { s.board with stopAsked := true } }
  | take {s : Crew inputs workers} {i : Fin inputs.length} {w : Fin workers}
      (waiting : s.stage i = .waiting)
      (free : ∀ j, (s.stage j).isBusy = true → s.worker j ≠ some w) :
      Step c s
        { s with
          stage := Function.update s.stage i .taken
          worker := Function.update s.worker i (some w) }
  | advance {s : Crew inputs workers} {i : Fin inputs.length} {board : Board} {stage : Stage}
      (advances : c.Advance (inputs.get i) s.board (s.stage i) board stage) :
      Step c s { s with board, stage := Function.update s.stage i stage }

/-- Any number of steps. -/
def Reaches (c : Conversion) (s s' : Crew inputs workers) : Prop :=
  Relation.ReflTransGen (Step c) s s'

/-- Nothing is left to do. -/
def IsComplete (s : Crew inputs workers) : Prop :=
  ∀ i, (s.stage i).isDone = true

/-- What the run gives when nothing is left to do. -/
def outcome (s : Crew inputs workers) : Except ConversionError Summary :=
  match s.board.firstError with
  | some e => .error e
  | none => .ok
    { total := inputs.length
      converted := s.board.converted
      bytesWritten := s.board.progress.statistics.bytesWritten
      cancelled := s.board.converted < inputs.length }

end Crew

/-! ## One step -/

section

variable {p p' : Progress} {input : Path} {g : Graph} {b b' : Board} {stage stage' : Stage}

theorem readInput_eq {found : Except ConversionError Graph} (serves : p.Serves c)
    (read : c.readInput p input = (found, p')) :
    c.graphOf p.tree input = found ∧ p'.tree = p.tree ∧ p'.statistics = p.statistics ∧
      p'.attempts = input :: p.attempts ∧ p'.Serves c := by
  obtain ⟨p'', same, facts⟩ := readInput_spec serves input
  cases read.symm.trans same
  exact ⟨rfl, facts⟩

theorem writeOutput_eq {outcome : Except ConversionError Nat} (serves : p.Serves c)
    (wrote : c.writeOutput p input g = (outcome, p')) :
    c.Writes p.tree input g outcome p'.tree ∧ p'.statistics = p.statistics ∧
      p'.attempts = p.attempts ∧ p'.Serves c := by
  obtain ⟨outcome', p'', same, facts⟩ := writeOutput_spec serves input g
  cases wrote.symm.trans same
  exact facts

namespace Advance

theorem serves (advances : c.Advance input b stage b' stage') (serves : b.progress.Serves c) :
    b'.progress.Serves c := by
  cases advances with
  | misread read | decode read => exact (readInput_eq serves read).2.2.2.2
  | miswrite wrote | write wrote => exact (writeOutput_eq serves wrote).2.2.2
  | count | note => exact ⟨serves.template, serves.decoder⟩
  | leave | want | drop | allow | convert | raise | fail => exact serves

theorem isBusy (advances : c.Advance input b stage b' stage') : stage.isBusy = true := by
  cases advances <;> rfl

/-- An input whose worker is bound to it was so before, or no failure was seen just now. -/
theorem isBound (advances : c.Advance input b stage b' stage')
    (bound : stage'.isBound = true) : stage.isBound = true ∨ b.failed = false := by
  cases advances with
  | leave | want | drop | convert => cases bound
  | allow noneFailed => exact .inr noneFailed
  | misread | decode | miswrite | write | count | note | raise | fail => exact .inl rfl

/-- Only an input whose worker is bound to it can turn out to have failed. -/
theorem isBound_of_error (advances : c.Advance input b stage b' stage')
    (fails : stage'.error?.isSome = true) : stage.isBound = true := by
  cases advances with
  | leave | want | drop | allow | decode | write | count | convert => cases fails
  | misread | miswrite | note | raise | fail => rfl

theorem failed_iff (advances : c.Advance input b stage b' stage') :
    b'.failed = true ↔
      b.failed = true ∨ stage'.isRaised = true ∧ stage.isRaised = false := by
  cases advances <;> simp [Stage.isRaised]

theorem isRaised (advances : c.Advance input b stage b' stage')
    (raised : stage.isRaised = true) : stage'.isRaised = true := by
  cases advances with
  | fail => rfl
  | leave | want | drop | allow | misread | decode | miswrite | write | count | convert | note
  | raise => cases raised

theorem stopAsked_eq (advances : c.Advance input b stage b' stage') :
    b'.stopAsked = b.stopAsked := by
  cases advances <;> rfl

/-- An input is skipped because a stop was asked for or an input failed. -/
theorem of_skipped (advances : c.Advance input b stage b' .skipped) :
    b.stopAsked = true ∨ b.failed = true := by
  cases advances with
  | leave asked => exact .inl asked
  | drop failed => exact .inr failed

/-- The first error stays what it is until an input that failed sets it. -/
theorem firstError_eq (advances : c.Advance input b stage b' stage') :
    b'.firstError = b.firstError ∧ (∀ e, stage' ≠ .failed e) ∨
      ∃ e, stage' = .failed e ∧ b'.firstError = b.firstError.or (some e) := by
  cases advances with
  | fail => exact .inr ⟨_, rfl, rfl⟩
  | leave | want | drop | allow | misread | decode | miswrite | write | count | convert | note
  | raise => exact .inl ⟨rfl, nofun⟩

/-- An input fails because it holds no graph, or because that cannot be written. -/
theorem error_cases (advances : c.Advance input b stage b' stage') (serves : b.progress.Serves c)
    {e : ConversionError} (fails : stage'.error? = some e) :
    stage.error? = some e ∨ stage = .allowed ∧ c.graphOf b.progress.tree input = .error e ∨
      ∃ g, stage = .decoded g ∧ c.Writes b.progress.tree input g (.error e) b'.progress.tree := by
  cases advances with
  | leave | want | drop | allow | decode | write | count | convert => cases fails
  | misread read =>
    cases fails
    exact .inr (.inl ⟨rfl, (readInput_eq serves read).1⟩)
  | miswrite wrote =>
    cases fails
    exact .inr (.inr ⟨_, rfl, (writeOutput_eq serves wrote).1⟩)
  | note | raise | fail => exact .inl fails

/-- An input that was not attempted now was not attempted before. -/
theorem isAttempted_eq_false (advances : c.Advance input b stage b' stage')
    (later : stage'.isAttempted = false) : stage.isAttempted = false := by
  cases advances with
  | leave | want | drop | allow => rfl
  | misread | decode | miswrite | write | count | convert | note | raise | fail => cases later

/-- A graph that was decoded just now is what the input holds. -/
theorem of_decoded (advances : c.Advance input b stage b' (.decoded g))
    (serves : b.progress.Serves c) :
    stage = .allowed ∧ c.graphOf b.progress.tree input = .ok g := by
  cases advances with
  | decode read => exact ⟨rfl, (readInput_eq serves read).1⟩

/-- Files stay as they are, unless the output is written now. -/
theorem tree_cases (advances : c.Advance input b stage b' stage') (serves : b.progress.Serves c) :
    b'.progress.tree = b.progress.tree ∧ stage'.output? = stage.output? ∨
      ∃ g outcome, stage = .decoded g ∧
        c.Writes b.progress.tree input g outcome b'.progress.tree ∧
        ∀ bytes, stage'.output? = some bytes → outcome = .ok bytes := by
  cases advances with
  | leave | want | drop | allow | count | convert | note | raise | fail => exact .inl ⟨rfl, rfl⟩
  | misread read | decode read => exact .inl ⟨(readInput_eq serves read).2.1, rfl⟩
  | miswrite wrote => exact .inr ⟨_, _, rfl, (writeOutput_eq serves wrote).1, nofun⟩
  | write wrote =>
    refine .inr ⟨_, _, rfl, (writeOutput_eq serves wrote).1, fun bytes is => ?_⟩
    cases is
    rfl

theorem sameDirectories (advances : c.Advance input b stage b' stage')
    (serves : b.progress.Serves c) : b.progress.tree.SameDirectories b'.progress.tree := by
  rcases advances.tree_cases serves with ⟨tree, -⟩ | ⟨g, outcome, -, writes, -⟩
  · rw [tree]
    exact .refl _
  · exact writes.sameDirectories

/-- Nothing changes where the path of the output does not lead. -/
theorem get?_eq (advances : c.Advance input b stage b' stage') (serves : b.progress.Serves c)
    {l : Location} (elsewhere : b.progress.tree.locate (c.output input) ≠ .ok l) :
    b'.progress.tree.get? l = b.progress.tree.get? l := by
  rcases advances.tree_cases serves with ⟨tree, -⟩ | ⟨g, outcome, -, writes, -⟩
  · rw [tree]
  · exact writes.get?_eq elsewhere

/-- What a path names stays if the output is not there. Where both lead can be seen before the run,
as no directory changes. -/
theorem find_iff (advances : c.Advance input b stage b' stage') (serves : b.progress.Serves c)
    (same : made.SameDirectories b.progress.tree) {p : Path}
    (elsewhere : made.locate (c.output input) ≠ made.locate p) {e : FileEntry} :
    b'.progress.tree.find p = .ok e ↔ b.progress.tree.find p = .ok e := by
  refine (advances.sameDirectories serves).find_iff fun l located => advances.get?_eq serves ?_
  rw [← located]
  exact same.locate_ne located elsewhere

/-- A worker that is at an input can go on. -/
theorem exists_of_isBusy (c : Conversion) (input : Path) (b : Board)
    (busy : stage.isBusy = true) : ∃ b' stage', c.Advance input b stage b' stage' := by
  cases stage with
  | waiting | converted | failed | skipped => cases busy
  | taken =>
    cases asked : b.stopAsked with
    | true => exact ⟨_, _, .leave asked⟩
    | false => exact ⟨_, _, .want asked⟩
  | wanted =>
    cases failed : b.failed with
    | true => exact ⟨_, _, .drop failed⟩
    | false => exact ⟨_, _, .allow failed⟩
  | allowed =>
    rcases read : c.readInput b.progress input with ⟨e | g, p⟩
    · exact ⟨_, _, .misread read⟩
    · exact ⟨_, _, .decode read⟩
  | decoded g =>
    rcases wrote : c.writeOutput b.progress input g with ⟨e | bytes, p⟩
    · exact ⟨_, _, .miswrite wrote⟩
    · exact ⟨_, _, .write wrote⟩
  | written => exact ⟨_, _, .count⟩
  | counted => exact ⟨_, _, .convert⟩
  | refused => exact ⟨_, _, .note⟩
  | noted => exact ⟨_, _, .raise⟩
  | raised => exact ⟨_, _, .fail⟩

/-- The counters grow by what the input adds to them. -/
theorem counters (advances : c.Advance input b stage b' stage') (serves : b.progress.Serves c) :
    b'.progress.statistics.converted + stage.conversions =
        b.progress.statistics.converted + stage'.conversions ∧
      b'.progress.statistics.failed + stage.failures =
        b.progress.statistics.failed + stage'.failures ∧
      b'.converted + stage.tally = b.converted + stage'.tally := by
  cases advances with
  | misread read | decode read =>
    obtain ⟨-, -, statistics, -, -⟩ := readInput_eq serves read
    simp [statistics, Stage.conversions, Stage.failures, Stage.tally]
  | miswrite wrote | write wrote =>
    obtain ⟨-, statistics, -, -⟩ := writeOutput_eq serves wrote
    simp [statistics, Stage.conversions, Stage.failures, Stage.tally]
  | _ =>
    simp [Stage.conversions, Stage.failures, Stage.tally, Statistics.recordConverted,
      Statistics.recordFailed]

theorem total_eq (advances : c.Advance input b stage b' stage') (serves : b.progress.Serves c) :
    b'.progress.statistics.total = b.progress.statistics.total := by
  cases advances with
  | misread read | decode read => rw [(readInput_eq serves read).2.2.1]
  | miswrite wrote | write wrote => rw [(writeOutput_eq serves wrote).2.1]
  | leave | want | drop | allow | count | convert | note | raise | fail => rfl

/-- The number of bytes grows by what the input adds to it. -/
theorem bytesWritten (advances : c.Advance input b stage b' stage')
    (serves : b.progress.Serves c) :
    b'.progress.statistics.bytesWritten + .ofNat stage.bytes =
      b.progress.statistics.bytesWritten + .ofNat stage'.bytes := by
  cases advances with
  | misread read | decode read =>
    obtain ⟨-, -, statistics, -, -⟩ := readInput_eq serves read
    simp [statistics, Stage.bytes]
  | miswrite wrote | write wrote =>
    obtain ⟨-, statistics, -, -⟩ := writeOutput_eq serves wrote
    simp [statistics, Stage.bytes]
  | _ => simp [Stage.bytes, Statistics.recordConverted, Statistics.recordFailed]

/-- The list of attempts grows by the input when it is attempted. -/
theorem attempts (advances : c.Advance input b stage b' stage') (serves : b.progress.Serves c) :
    (b'.progress.attempts : Multiset Path) + (if stage.isAttempted then {input} else 0) =
      (b.progress.attempts : Multiset Path) + (if stage'.isAttempted then {input} else 0) := by
  cases advances with
  | misread read | decode read =>
    obtain ⟨-, -, -, attempts, -⟩ := readInput_eq serves read
    rw [attempts, ← Multiset.cons_coe, ← Multiset.singleton_add]
    simp [Stage.isAttempted, add_comm]
  | miswrite wrote | write wrote =>
    obtain ⟨-, -, attempts, -⟩ := writeOutput_eq serves wrote
    simp [attempts, Stage.isAttempted]
  | _ => rfl

end Advance

end

namespace Crew

/-- Workers are never stuck: something is left to do only if a worker can go on with its input or
take one. -/
theorem complete_or_step (c : Conversion) (s : Crew inputs workers) (w : Fin workers) :
    s.IsComplete ∨ (∃ i board stage, c.Advance (inputs.get i) s.board (s.stage i) board stage) ∨
      ∃ i, s.stage i = .waiting ∧ ∀ j, (s.stage j).isBusy = true → s.worker j ≠ some w := by
  by_cases busy : ∃ i, (s.stage i).isBusy = true
  · obtain ⟨i, busy⟩ := busy
    obtain ⟨board, stage, advance⟩ := Advance.exists_of_isBusy c (inputs.get i) s.board busy
    exact .inr (.inl ⟨i, board, stage, advance⟩)
  · by_cases waiting : ∃ i, s.stage i = .waiting
    · obtain ⟨i, waiting⟩ := waiting
      exact .inr (.inr ⟨i, waiting, fun j busy' => absurd ⟨j, busy'⟩ busy⟩)
    · refine .inl fun i => ?_
      cases is : s.stage i with
      | waiting => exact absurd ⟨i, is⟩ waiting
      | converted | failed | skipped => rfl
      | taken | wanted | allowed | decoded | written | counted | refused | noted
      | raised => exact absurd ⟨i, by rw [is]; rfl⟩ busy

/-! ## What inputs add up to -/

theorem Reaches.serves (reached : Reaches c (start c made inputs workers) s) :
    s.board.progress.Serves c := by
  induction reached with
  | refl => exact ⟨rfl, rfl⟩
  | tail _ step serves =>
    cases step with
    | stop | take => exact serves
    | advance advances => exact advances.serves serves

theorem sum_update {M : Type} [AddCommMonoid M] (share : Fin inputs.length → Stage → M)
    (stages : Fin inputs.length → Stage) (i : Fin inputs.length) (stage : Stage) :
    ∑ j, share j (Function.update stages i stage j) + share i (stages i) =
      ∑ j, share j (stages j) + share i stage := by
  rw [← Finset.add_sum_erase _ _ (Finset.mem_univ i), ← Finset.add_sum_erase _ (fun j =>
    share j (stages j)) (Finset.mem_univ i), Function.update_self]
  have others : ∑ j ∈ Finset.univ.erase i, share j (Function.update stages i stage j) =
      ∑ j ∈ Finset.univ.erase i, share j (stages j) := by
    refine Finset.sum_congr rfl fun j other => ?_
    rw [Function.update_of_ne (Finset.ne_of_mem_erase other)]
  rw [others, add_comm (share i stage), add_comm (share i (stages i)), add_right_comm]

/-- A counter that starts at zero and grows by what an input adds to it shows what all inputs have
added. -/
theorem ledger {M : Type} [AddCancelCommMonoid M] (counter : Board → M)
    (share : Fin inputs.length → Stage → M)
    (start : counter (start c made inputs workers).board = 0)
    (waiting : ∀ i, share i .waiting = 0) (taken : ∀ i, share i .taken = 0)
    (stop : ∀ b : Board, counter { b with stopAsked := true } = counter b)
    (advance : ∀ {i b b' stage stage'}, b.progress.Serves c →
      c.Advance (inputs.get i) b stage b' stage' →
      counter b' + share i stage = counter b + share i stage')
    (reached : Reaches c (Crew.start c made inputs workers) s) :
    counter s.board = ∑ i, share i (s.stage i) := by
  induction reached with
  | refl => exact start.trans (by simp [Crew.start, waiting])
  | @tail s₁ s₂ before step counted =>
    cases step with
    | stop => exact (stop s₁.board).trans counted
    | @take i w waits free =>
      have same := sum_update share s₁.stage i .taken
      rw [waits, waiting, taken, add_zero, add_zero] at same
      exact counted.trans same.symm
    | @advance i b stage advances =>
      have grown := advance (Reaches.serves before) advances
      rw [counted, ← sum_update share s₁.stage i stage] at grown
      exact add_right_cancel grown

theorem Reaches.total_eq (reached : Reaches c (start c made inputs workers) s) :
    s.board.progress.statistics.total = inputs.length := by
  induction reached with
  | refl => rfl
  | tail before step same =>
    cases step with
    | stop | take => exact same
    | advance advances => exact (advances.total_eq (Reaches.serves before)).trans same

theorem Reaches.converted_eq (reached : Reaches c (start c made inputs workers) s) :
    s.board.progress.statistics.converted = ∑ i, (s.stage i).conversions :=
  ledger (fun b => b.progress.statistics.converted) (fun _ stage => stage.conversions) rfl
    (fun _ => rfl) (fun _ => rfl) (fun _ => rfl)
    (fun serves advances => (advances.counters serves).1) reached

theorem Reaches.failed_eq (reached : Reaches c (start c made inputs workers) s) :
    s.board.progress.statistics.failed = ∑ i, (s.stage i).failures :=
  ledger (fun b => b.progress.statistics.failed) (fun _ stage => stage.failures) rfl
    (fun _ => rfl) (fun _ => rfl) (fun _ => rfl)
    (fun serves advances => (advances.counters serves).2.1) reached

theorem Reaches.tally_eq (reached : Reaches c (start c made inputs workers) s) :
    s.board.converted = ∑ i, (s.stage i).tally :=
  ledger (fun b => b.converted) (fun _ stage => stage.tally) rfl
    (fun _ => rfl) (fun _ => rfl) (fun _ => rfl)
    (fun serves advances => (advances.counters serves).2.2) reached

theorem Reaches.bytesWritten_eq (reached : Reaches c (start c made inputs workers) s) :
    s.board.progress.statistics.bytesWritten = ∑ i, UInt64.ofNat (s.stage i).bytes :=
  ledger (fun b => b.progress.statistics.bytesWritten) (fun _ stage => .ofNat stage.bytes) rfl
    (fun _ => rfl) (fun _ => rfl) (fun _ => rfl)
    (fun serves advances => advances.bytesWritten serves) reached

/-- The attempts are the inputs that were attempted, each as often as it stands in the list. -/
theorem Reaches.attempts_eq (reached : Reaches c (start c made inputs workers) s) :
    (s.board.progress.attempts : Multiset Path) =
      ∑ i, if (s.stage i).isAttempted then {inputs.get i} else 0 :=
  ledger (fun b => (b.progress.attempts : Multiset Path))
    (fun i stage => if stage.isAttempted then {inputs.get i} else 0) rfl
    (fun _ => rfl) (fun _ => rfl) (fun _ => rfl)
    (fun serves advances => advances.attempts serves) reached

/-! ## Workers and flags -/

/-- Some input is at a stage of a kind after a change to one input, if that one is or if one was
before. The change itself must not lead away from stages of that kind. -/
theorem exists_update {P : Stage → Prop} {stages : Fin inputs.length → Stage}
    {i : Fin inputs.length} {stage : Stage} (kept : P (stages i) → P stage) :
    (∃ j, P (Function.update stages i stage j)) ↔ P stage ∨ ∃ j, P (stages j) := by
  rw [Function.exists_update_iff stages fun _ => P]
  constructor
  · rintro (here | ⟨j, -, there⟩)
    · exact .inl here
    · exact .inr ⟨j, there⟩
  · rintro (here | ⟨j, there⟩)
    · exact .inl here
    · rcases eq_or_ne j i with rfl | other
      · exact .inl (kept there)
      · exact .inr ⟨j, other, there⟩

/-- An input is at a stage of a kind after a change to one input only if it was before, or if the
change leads to that kind. -/
theorem of_update {P : Stage → Prop} {stages : Fin inputs.length → Stage}
    {i j : Fin inputs.length} {stage : Stage} (is : P (Function.update stages i stage j))
    (new : ¬ P stage) : P (stages j) := by
  rcases eq_or_ne j i with rfl | other
  · rw [Function.update_self] at is
    exact absurd is new
  · rwa [Function.update_of_ne other] at is

/-- How the workers and the flags that they share hang together. -/
structure Sound (s : Crew inputs workers) : Prop where
  /-- An input that is not waiting was taken by a worker. -/
  owned : ∀ i, s.stage i ≠ .waiting → ∃ w, s.worker i = some w
  /-- A worker is at one input at a time. -/
  alone : ∀ i j, (s.stage i).isBusy = true → (s.stage j).isBusy = true →
    s.worker i = s.worker j → i = j
  /-- A worker that failed with one input is not bound to another. -/
  once : ∀ i j, (s.stage i).error?.isSome = true → (s.stage j).isBound = true →
    s.worker i = s.worker j → i = j
  failed : s.board.failed = true ↔ ∃ i, (s.stage i).isRaised = true
  firstError : ∀ e, s.board.firstError = some e → ∃ i, s.stage i = .failed e
  noError : s.board.firstError = none → ∀ i e, s.stage i ≠ .failed e
  skipped : ∀ i, s.stage i = .skipped → s.board.stopAsked = true ∨ s.board.failed = true

theorem sound_start (c : Conversion) (made : FileTree) (inputs : List Path) (workers : Nat) :
    (start c made inputs workers).Sound where
  owned _ notWaiting := absurd rfl notWaiting
  alone _ _ := nofun
  once _ _ := nofun
  failed := iff_of_false nofun nofun
  firstError _ := nofun
  noError _ _ _ := nofun
  skipped _ := nofun

namespace Sound

theorem stop (sound : s.Sound) :
    Sound { s with board := { s.board with stopAsked := true } } :=
  { sound with skipped := fun _ _ => .inl rfl }

theorem take (sound : s.Sound) {i : Fin inputs.length} {w : Fin workers}
    (waiting : s.stage i = .waiting)
    (free : ∀ j, (s.stage j).isBusy = true → s.worker j ≠ some w) :
    Sound
      { s with
        stage := Function.update s.stage i .taken
        worker := Function.update s.worker i (some w) } where
  owned j notWaiting := by
    rcases eq_or_ne j i with rfl | other
    · exact ⟨w, Function.update_self ..⟩
    · simp only [Function.update_of_ne other] at notWaiting ⊢
      exact sound.owned j notWaiting
  alone j k busy busy' same := by
    rcases eq_or_ne j i with rfl | other <;> rcases eq_or_ne k j with rfl | other'
    · rfl
    · simp only [Function.update_self, Function.update_of_ne other'] at busy' same
      exact absurd same.symm (free k busy')
    · rfl
    · rcases eq_or_ne k i with rfl | other''
      · simp only [Function.update_self, Function.update_of_ne other] at busy same
        exact absurd same (free j busy)
      · simp only [Function.update_of_ne other, Function.update_of_ne other''] at busy busy' same
        exact sound.alone j k busy busy' same
  once j k fails bound same := by
    -- the input that is taken now has not failed, and no worker is bound to it
    rcases eq_or_ne j i with rfl | other
    · simp [Stage.error?] at fails
    · rcases eq_or_ne k i with rfl | other'
      · simp [Stage.isBound] at bound
      · simp only [Function.update_of_ne other, Function.update_of_ne other'] at fails bound same
        exact sound.once j k fails bound same
  failed := by
    rw [exists_update (P := fun stage => stage.isRaised = true) (by simp [waiting, Stage.isRaised])]
    simpa [Stage.isRaised] using sound.failed
  firstError e is := by
    rw [exists_update (P := fun stage => stage = .failed e) (by simp [waiting])]
    exact .inr (sound.firstError e is)
  noError unset j e is := sound.noError unset j e (of_update (P := (· = .failed e)) is nofun)
  skipped j is := sound.skipped j (of_update (P := (· = .skipped)) is nofun)

theorem advance (sound : s.Sound) {i : Fin inputs.length} {board : Board} {stage : Stage}
    (advances : c.Advance (inputs.get i) s.board (s.stage i) board stage) :
    Sound { s with board, stage := Function.update s.stage i stage } where
  owned j notWaiting := by
    rcases eq_or_ne j i with rfl | other
    · exact sound.owned j fun waiting => by simpa [waiting, Stage.isBusy] using advances.isBusy
    · simp only [Function.update_of_ne other] at notWaiting
      exact sound.owned j notWaiting
  alone j k busy busy' same := by
    have before {j : Fin inputs.length}
        (busy : (Function.update s.stage i stage j).isBusy = true) :
        (s.stage j).isBusy = true := by
      rcases eq_or_ne j i with rfl | other
      · exact advances.isBusy
      · rwa [Function.update_of_ne other] at busy
    exact sound.alone j k (before busy) (before busy') same
  once j k fails bound same := by
    rcases eq_or_ne j i with rfl | other
    · rcases eq_or_ne k j with rfl | other'
      · rfl
      · -- its worker was bound to `j` before, so it cannot have failed with `k`, nor be at it
        simp only [Function.update_self, Function.update_of_ne other'] at fails bound
        by_cases fails' : (s.stage k).error?.isSome = true
        · exact (sound.once k j fails' (advances.isBound_of_error fails) same.symm).symm
        · exact sound.alone j k advances.isBusy (Stage.isBusy_of_isBound bound fails') same
    · rcases eq_or_ne k i with rfl | other'
      · -- the worker of `k` would have seen that `j` failed, had it been the same
        simp only [Function.update_self, Function.update_of_ne other] at fails bound
        rcases advances.isBound bound with bound' | unseen
        · exact sound.once j k fails bound' same
        · by_cases busy : (s.stage j).isBusy = true
          · exact sound.alone j k busy advances.isBusy same
          · have seen := sound.failed.2 ⟨j, Stage.isRaised_of_error fails busy⟩
            cases unseen.symm.trans seen
      · simp only [Function.update_of_ne other, Function.update_of_ne other'] at fails bound
        exact sound.once j k fails bound same
  failed := by
    rw [exists_update (P := fun stage => stage.isRaised = true) advances.isRaised,
      ← sound.failed, advances.failed_iff]
    cases raised : (s.stage i).isRaised with
    | true => simp [sound.failed.2 ⟨i, raised⟩]
    | false => simp [or_comm]
  firstError e is := by
    have kept : s.stage i = .failed e → stage = .failed e := by
      intro done
      simpa [done, Stage.isBusy] using advances.isBusy
    rw [exists_update (P := fun stage => stage = .failed e) kept]
    rcases advances.firstError_eq with ⟨same, -⟩ | ⟨e', now, set⟩
    · exact .inr (sound.firstError e (same.symm.trans is))
    · rw [show board.firstError = some e from is] at set
      cases was : s.board.firstError with
      | none =>
        rw [was] at set
        cases set
        exact .inl now
      | some e'' =>
        rw [was] at set
        cases set
        exact .inr (sound.firstError e was)
  noError unset j e is := by
    have unset : board.firstError = none := unset
    rcases advances.firstError_eq with ⟨same, notFailed⟩ | ⟨e', -, set⟩
    · rcases eq_or_ne j i with rfl | other
      · simp only [Function.update_self] at is
        exact notFailed e is
      · simp only [Function.update_of_ne other] at is
        exact sound.noError (same.symm.trans unset) j e is
    · rw [unset] at set
      cases was : s.board.firstError <;> rw [was] at set <;> cases set
  skipped j is := by
    rcases eq_or_ne j i with rfl | other
    · simp only [Function.update_self] at is
      subst is
      rw [show _ ↔ _ from advances.failed_iff, advances.stopAsked_eq]
      exact advances.of_skipped.imp_right .inl
    · simp only [Function.update_of_ne other] at is
      rw [show _ ↔ _ from advances.failed_iff, advances.stopAsked_eq]
      exact (sound.skipped j is).imp_right .inl

end Sound

theorem sound_of_reaches (reached : Reaches c (start c made inputs workers) s) : s.Sound := by
  induction reached with
  | refl => exact sound_start c made inputs workers
  | tail _ step sound =>
    cases step with
    | stop => exact sound.stop
    | take waiting free => exact sound.take waiting free
    | advance advances => exact sound.advance advances

end Crew

end GraphScribe.Conversion
