import GraphScribe.Proofs.Conversion.Workers

/-!
# Every schedule

Whatever the order in which workers take inputs and do their steps, a run that is over has attempted
no input twice, counts every attempt, and fails just when an input did. If the outputs are files
apart from each other and from the inputs, and all inputs are converted, the order cannot be told
from what is left.

* `Crew.settled_of_complete`: what holds when nothing is left to do.
* `Crew.apart_of_reaches`: an input that no other output reaches is converted as if it were alone.
* `Crew.run_isSchedule`: a run that takes its inputs in order is one of the schedules.
* `Crew.eq_run_of_independent`: if the outputs are apart, it stands for all of them.
* `workers_settle`: what holds for every schedule.
-/

namespace GraphScribe.Conversion

variable {c : Conversion} {made : FileTree} {inputs : List Path} {workers : Nat}
  {s : Crew inputs workers}

namespace Crew

/-! ## What is left when nothing is left to do -/

theorem sum_singleton (inputs : List Path) :
    ∑ i : Fin inputs.length, ({inputs.get i} : Multiset Path) = inputs := by
  have inOrder : (Finset.univ : Finset (Fin inputs.length)).val.map inputs.get =
      (inputs : Multiset Path) := by
    rw [Fin.univ_val_map]
    exact congrArg _ (List.ofFn_get inputs)
  rw [← Multiset.sum_map_singleton (inputs : Multiset Path), ← inOrder, Multiset.map_map]
  rfl

/-- No input is attempted more often than it stands in the list. -/
theorem Reaches.attempts_subperm (reached : Reaches c (start c made inputs workers) s) :
    s.board.progress.attempts.Subperm inputs := by
  rw [← Multiset.coe_le, reached.attempts_eq, ← sum_singleton]
  refine Finset.sum_le_sum fun i _ => ?_
  split
  · exact le_rfl
  · exact Multiset.zero_le _

theorem Reaches.mem_attempts (reached : Reaches c (start c made inputs workers) s)
    {i : Fin inputs.length} (attempted : (s.stage i).isAttempted = true) :
    inputs.get i ∈ s.board.progress.attempts := by
  rw [← Multiset.mem_coe, reached.attempts_eq, Multiset.mem_sum]
  exact ⟨i, Finset.mem_univ i, by rw [if_pos attempted]; exact Multiset.mem_singleton_self _⟩

/-- Every worker fails once at most. -/
theorem Reaches.failed_le (reached : Reaches c (start c made inputs workers) s) :
    s.board.progress.statistics.failed ≤ workers := by
  have sound := sound_of_reaches reached
  let failing := Finset.univ.filter fun i => (s.stage i).error?.isSome = true
  have counted : ∑ i, (s.stage i).failures ≤ failing.card := by
    rw [Finset.card_filter]
    exact Finset.sum_le_sum fun i _ => (s.stage i).failures_le
  have fewWorkers : failing.card ≤ (Finset.univ.image (some : Fin workers → _)).card := by
    refine Finset.card_le_card_of_injOn s.worker (fun i fails => ?_) fun i fails j fails' same => ?_
    · have error : (s.stage i).error?.isSome = true := (Finset.mem_filter.1 fails).2
      obtain ⟨w, isWorker⟩ := sound.owned i fun waiting => by
        rw [waiting] at error
        cases error
      rw [isWorker]
      exact Finset.mem_image_of_mem _ (Finset.mem_univ w)
    · exact sound.once i j (Finset.mem_filter.1 fails).2
        (Stage.isBound_of_error (Finset.mem_filter.1 fails').2) same
  rw [Finset.card_image_of_injective _ (Option.some_injective _), Finset.card_fin] at fewWorkers
  rw [reached.failed_eq]
  exact counted.trans fewWorkers

/-- Errors are about the input or its output. -/
theorem Reaches.path_of_error (reached : Reaches c (start c made inputs workers) s)
    {j : Fin inputs.length} {e : ConversionError} (fails : (s.stage j).error? = some e) :
    e.path = inputs.get j ∨ e.path = c.output (inputs.get j) := by
  induction reached with
  | refl => cases fails
  | tail before step ih =>
    cases step with
    | stop => exact ih fails
    | take => exact ih (of_update (P := (·.error? = some e)) fails nofun)
    | @advance i board stage advances =>
      rcases eq_or_ne j i with rfl | other
      · simp only [Function.update_self] at fails
        rcases advances.error_cases (Reaches.serves before) fails with
          fails' | ⟨-, unread⟩ | ⟨g, -, unwritten⟩
        · exact ih fails'
        · exact .inl (path_of_graphOf_error unread)
        · exact .inr unwritten.path_of_error
      · simp only [Function.update_of_ne other] at fails
        exact ih fails

/-- What holds of a run when nothing is left to do. -/
structure Settled (c : Conversion) (s : Crew inputs workers) : Prop where
  /-- No input is attempted more often than it stands in the list. -/
  attempts : s.board.progress.attempts.Subperm inputs
  /-- The run fails just when an input that was attempted failed. -/
  error_iff : (∃ e, s.outcome = .error e) ↔ ∃ i e, s.stage i = .failed e
  /-- The error is that of an input that failed. -/
  error_of : ∀ e, s.outcome = .error e → ∃ i, s.stage i = .failed e
  /-- What failed was attempted, and the error is about the input or its output. -/
  failed_of : ∀ i e, s.stage i = .failed e → inputs.get i ∈ s.board.progress.attempts ∧
    (e.path = inputs.get i ∨ e.path = c.output (inputs.get i))
  failed_le : s.board.progress.statistics.failed ≤ workers
  /-- Every attempt is counted, and counted once. -/
  counted : s.board.progress.statistics.converted + s.board.progress.statistics.failed =
    s.board.progress.attempts.length
  /-- All inputs are converted if none failed and no stop was asked for. -/
  converted : (∀ i e, s.stage i ≠ .failed e) → s.board.stopAsked = false →
    (∀ i, ∃ bytes, s.stage i = .converted bytes) ∧
      ∃ summary, s.outcome = .ok summary ∧ summary.converted = inputs.length ∧
        summary.cancelled = false
  /-- A run that did not fail is cancelled just when an input was skipped. -/
  cancelled_iff : ∀ summary, s.outcome = .ok summary →
    (summary.cancelled = true ↔ ∃ i, s.stage i = .skipped)

theorem IsComplete.cases (complete : s.IsComplete) (i : Fin inputs.length) :
    (∃ bytes, s.stage i = .converted bytes) ∨ (∃ e, s.stage i = .failed e) ∨
      s.stage i = .skipped := by
  have done := complete i
  cases is : s.stage i with
  | converted bytes => exact .inl ⟨bytes, rfl⟩
  | failed e => exact .inr (.inl ⟨e, rfl⟩)
  | skipped => exact .inr (.inr rfl)
  | _ => rw [is] at done; cases done

theorem outcome_eq_error {e : ConversionError} :
    s.outcome = .error e ↔ s.board.firstError = some e := by
  unfold outcome
  cases s.board.firstError <;> simp

theorem outcome_eq_ok {summary : Summary} (ok : s.outcome = .ok summary) :
    s.board.firstError = none ∧ summary =
      { total := inputs.length
        converted := s.board.converted
        bytesWritten := s.board.progress.statistics.bytesWritten
        cancelled := s.board.converted < inputs.length } := by
  unfold outcome at ok
  split at ok
  · cases ok
  · next unset =>
    cases ok
    exact ⟨unset, rfl⟩

theorem outcome_of_unset (unset : s.board.firstError = none) :
    s.outcome = .ok
      { total := inputs.length
        converted := s.board.converted
        bytesWritten := s.board.progress.statistics.bytesWritten
        cancelled := s.board.converted < inputs.length } := by
  rw [outcome, unset]

theorem Sound.unset (sound : s.Sound) (noneFailed : ∀ i e, s.stage i ≠ .failed e) :
    s.board.firstError = none := by
  cases set : s.board.firstError with
  | none => rfl
  | some e =>
    obtain ⟨i, is⟩ := sound.firstError e set
    exact absurd is (noneFailed i e)

/-- The run has converted as many inputs as there are if it has converted each. -/
theorem Reaches.converted_of_all (reached : Reaches c (start c made inputs workers) s)
    (all : ∀ i, ∃ bytes, s.stage i = .converted bytes) : s.board.converted = inputs.length := by
  have ones (i : Fin inputs.length) : (s.stage i).tally = 1 := by
    obtain ⟨bytes, is⟩ := all i
    rw [is]
    rfl
  rw [reached.tally_eq, Finset.sum_congr rfl fun i _ => ones i]
  simp

/-- The run has converted fewer inputs than there are if it has skipped one. -/
theorem Reaches.converted_of_skipped (reached : Reaches c (start c made inputs workers) s)
    {i : Fin inputs.length} (skipped : s.stage i = .skipped) :
    s.board.converted < inputs.length := by
  have fewer : ∑ j, (s.stage j).tally < ∑ _j : Fin inputs.length, 1 := by
    refine Finset.sum_lt_sum (fun j _ => (s.stage j).tally_le_one) ⟨i, Finset.mem_univ i, ?_⟩
    rw [skipped]
    exact Nat.zero_lt_one
  rw [reached.tally_eq]
  simpa using fewer

/-- All inputs are converted if none failed and none was skipped. -/
theorem IsComplete.all_converted (complete : s.IsComplete)
    (noneFailed : ∀ i e, s.stage i ≠ .failed e) (noneSkipped : ∀ i, s.stage i ≠ .skipped)
    (i : Fin inputs.length) : ∃ bytes, s.stage i = .converted bytes := by
  rcases complete.cases i with converted | ⟨e, failed⟩ | skipped
  · exact converted
  · exact absurd failed (noneFailed i e)
  · exact absurd skipped (noneSkipped i)

/-- No input is skipped if none failed and no stop was asked for. -/
theorem IsComplete.none_skipped (complete : s.IsComplete) (sound : s.Sound)
    (noneFailed : ∀ i e, s.stage i ≠ .failed e) (notAsked : s.board.stopAsked = false)
    (i : Fin inputs.length) : s.stage i ≠ .skipped := by
  intro skipped
  rcases sound.skipped i skipped with asked | raised
  · cases notAsked.symm.trans asked
  · obtain ⟨j, raised⟩ := sound.failed.1 raised
    rcases complete.cases j with ⟨bytes, is⟩ | ⟨e, failed⟩ | is
    · simp [is, Stage.isRaised] at raised
    · exact absurd failed (noneFailed j e)
    · simp [is, Stage.isRaised] at raised

/-- A run that gives no error and was not cancelled has converted all inputs. -/
theorem IsComplete.all_of_outcome (complete : s.IsComplete)
    (reached : Reaches c (start c made inputs workers) s) {summary : Summary}
    (ok : s.outcome = .ok summary) (whole : summary.cancelled = false) (i : Fin inputs.length) :
    ∃ bytes, s.stage i = .converted bytes := by
  obtain ⟨unset, rfl⟩ := outcome_eq_ok ok
  refine complete.all_converted ((sound_of_reaches reached).noError unset) (fun j skipped => ?_) i
  exact of_decide_eq_false whole (reached.converted_of_skipped skipped)

/-- Whatever the order of the steps, a run that is over has lost no input and counted none twice. -/
theorem settled_of_complete (reached : Reaches c (start c made inputs workers) s)
    (complete : s.IsComplete) : s.Settled c where
  attempts := reached.attempts_subperm
  error_iff := by
    constructor
    · rintro ⟨e, failed⟩
      obtain ⟨i, is⟩ := (sound_of_reaches reached).firstError e (outcome_eq_error.1 failed)
      exact ⟨i, e, is⟩
    · rintro ⟨i, e, is⟩
      cases set : s.board.firstError with
      | none => exact absurd is ((sound_of_reaches reached).noError set i e)
      | some e' => exact ⟨e', outcome_eq_error.2 set⟩
  error_of e failed := (sound_of_reaches reached).firstError e (outcome_eq_error.1 failed)
  failed_of i e is :=
    ⟨reached.mem_attempts (by rw [is]; rfl), reached.path_of_error (by rw [is]; rfl)⟩
  failed_le := reached.failed_le
  counted := by
    have each (i : Fin inputs.length) : (s.stage i).conversions + (s.stage i).failures =
        Multiset.card (if (s.stage i).isAttempted = true then {inputs.get i} else 0) := by
      rcases complete.cases i with ⟨bytes, is⟩ | ⟨e, is⟩ | is <;> rw [is] <;> rfl
    rw [reached.converted_eq, reached.failed_eq, ← Finset.sum_add_distrib,
      Finset.sum_congr rfl fun i _ => each i, ← Multiset.card_sum, ← reached.attempts_eq,
      Multiset.coe_card]
  converted noneFailed notAsked := by
    have sound := sound_of_reaches reached
    have all := complete.all_converted noneFailed (complete.none_skipped sound noneFailed notAsked)
    refine ⟨all, _, outcome_of_unset (sound.unset noneFailed), reached.converted_of_all all, ?_⟩
    simp [reached.converted_of_all all]
  cancelled_iff summary ok := by
    obtain ⟨unset, rfl⟩ := outcome_eq_ok ok
    rw [decide_eq_true_iff]
    constructor
    · intro fewer
      by_contra noneSkipped
      have all := complete.all_converted ((sound_of_reaches reached).noError unset)
        (not_exists.1 noneSkipped)
      rw [reached.converted_of_all all] at fewer
      exact absurd fewer (Nat.lt_irrefl _)
    · rintro ⟨i, skipped⟩
      exact reached.converted_of_skipped skipped

end Crew

/-! ## Files that are apart -/

/-- The paths of the outputs lead to files apart from each other and from the inputs. -/
structure Independent (c : Conversion) (made : FileTree) (inputs : List Path) : Prop where
  outputs : ∀ i j : Fin inputs.length, i ≠ j →
    made.locate (c.output (inputs.get i)) ≠ made.locate (c.output (inputs.get j))
  notInputs : ∀ i j : Fin inputs.length,
    made.locate (c.output (inputs.get i)) ≠ made.locate (inputs.get j)

/-- No output of another input is where an input is. -/
def Unreached (c : Conversion) (made : FileTree) (inputs : List Path) (i : Fin inputs.length) :
    Prop :=
  ∀ j, j ≠ i → made.locate (c.output (inputs.get j)) ≠ made.locate (inputs.get i)

/-- No output of another input is where the output of an input is. -/
def Unshared (c : Conversion) (made : FileTree) (inputs : List Path) (i : Fin inputs.length) :
    Prop :=
  ∀ j, j ≠ i → made.locate (c.output (inputs.get j)) ≠ made.locate (c.output (inputs.get i))

theorem Independent.unreached (independent : c.Independent made inputs) (i : Fin inputs.length) :
    c.Unreached made inputs i :=
  fun j _ => independent.notInputs j i

theorem Independent.unshared (independent : c.Independent made inputs) (i : Fin inputs.length) :
    c.Unshared made inputs i :=
  fun j other => independent.outputs j i other

namespace Crew

/-! ### What steps leave as it was -/

theorem Reaches.sameDirectories (reached : Reaches c (start c made inputs workers) s) :
    made.SameDirectories s.board.progress.tree := by
  induction reached with
  | refl => exact .refl made
  | tail before step same =>
    cases step with
    | stop | take => exact same
    | advance advances => exact same.trans (advances.sameDirectories (Reaches.serves before))

/-- Nothing changes where no path of an output leads. -/
theorem Reaches.get?_eq (reached : Reaches c (start c made inputs workers) s) {l : Location}
    (elsewhere : ∀ i : Fin inputs.length, made.locate (c.output (inputs.get i)) ≠ .ok l) :
    s.board.progress.tree.get? l = made.get? l := by
  induction reached with
  | refl => rfl
  | tail before step kept =>
    cases step with
    | stop | take => exact kept
    | @advance i board stage advances =>
      have same := Reaches.sameDirectories before
      refine (advances.get?_eq (Reaches.serves before) ?_).trans kept
      rw [Ne, same.locate_iff]
      exact elsewhere i

/-- What a path names stays if no output is there. -/
theorem Reaches.find_iff (reached : Reaches c (start c made inputs workers) s) {p : Path}
    (elsewhere : ∀ i : Fin inputs.length, made.locate (c.output (inputs.get i)) ≠ made.locate p)
    {e : FileEntry} : s.board.progress.tree.find p = .ok e ↔ made.find p = .ok e := by
  refine reached.sameDirectories.find_iff fun l located => reached.get?_eq fun i => ?_
  rw [← located]
  exact elsewhere i

/-! ### One input among others -/

/-- An input is as it was until it is read, and it is converted as it would be alone. Its output
stays if no other one is in its place. -/
structure Apart (c : Conversion) (made : FileTree) (s : Crew inputs workers)
    (i : Fin inputs.length) : Prop where
  unread : (s.stage i).isAttempted = false →
    ∀ e, s.board.progress.tree.find (inputs.get i) = .ok e ↔ made.find (inputs.get i) = .ok e
  decoded : ∀ g, s.stage i = .decoded g → c.graphOf made (inputs.get i) = .ok g
  written : ∀ bytes, (s.stage i).output? = some bytes →
    ∃ g t', c.graphOf made (inputs.get i) = .ok g ∧ c.Writes made (inputs.get i) g (.ok bytes) t' ∧
      (c.Unshared made inputs i →
        s.board.progress.tree.find (c.output (inputs.get i)) = .ok (.file (c.template.render g)))

namespace Apart

variable {i : Fin inputs.length} {board : Board} {stage : Stage}

/-- An input holds the graph that it held, as long as it was not read. -/
theorem graphOf_iff (apart : s.Apart c made i) (waits : (s.stage i).isAttempted = false)
    {g : Graph} :
    c.graphOf s.board.progress.tree (inputs.get i) = .ok g ↔
      c.graphOf made (inputs.get i) = .ok g :=
  graphOf_congr (apart.unread waits)

/-- The worker of the input goes on with it. -/
theorem advance (apart : s.Apart c made i) (same : made.SameDirectories s.board.progress.tree)
    (serves : s.board.progress.Serves c)
    (advances : c.Advance (inputs.get i) s.board (s.stage i) board stage) :
    Apart c made { s with board, stage := Function.update s.stage i stage } i := by
  refine ⟨fun waits => ?_, fun g is => ?_, fun bytes is => ?_⟩
  · -- what is not attempted has written nothing
    simp only [Function.update_self] at waits
    have waited := advances.isAttempted_eq_false waits
    rcases advances.tree_cases serves with ⟨tree, -⟩ | ⟨g, outcome, was, -, -⟩
    · rw [tree]
      exact apart.unread waited
    · rw [was] at waited
      cases waited
  · simp only [Function.update_self] at is
    subst is
    obtain ⟨was, found⟩ := advances.of_decoded serves
    exact (apart.graphOf_iff (by rw [was]; rfl)).1 found
  · simp only [Function.update_self] at is
    rcases advances.tree_cases serves with ⟨tree, output⟩ | ⟨g, outcome, was, writes, ok⟩
    · rw [tree]
      exact apart.written bytes (output ▸ is)
    · cases ok bytes is
      obtain ⟨t', writes'⟩ := writes.ok_of_same same.symm
      exact ⟨g, t', apart.decoded g was, writes', fun _ => writes.of_ok.2⟩

/-- The worker of another input goes on with that one. -/
theorem advance_other (apart : s.Apart c made i)
    (same : made.SameDirectories s.board.progress.tree) (serves : s.board.progress.Serves c)
    (unreached : c.Unreached made inputs i) {j : Fin inputs.length} (other : j ≠ i)
    (advances : c.Advance (inputs.get j) s.board (s.stage j) board stage) :
    Apart c made { s with board, stage := Function.update s.stage j stage } i := by
  have still : Function.update s.stage j stage i = s.stage i := Function.update_of_ne other.symm ..
  refine ⟨fun waits e => ?_, fun g is => ?_, fun bytes is => ?_⟩
  · simp only [still] at waits
    exact (advances.find_iff serves same (unreached j other)).trans (apart.unread waits e)
  · exact apart.decoded g (still.symm.trans is)
  · simp only [still] at is
    obtain ⟨g, t', found, writes, there⟩ := apart.written bytes is
    exact ⟨g, t', found, writes, fun unshared =>
      (advances.find_iff serves same (unshared j other)).2 (there unshared)⟩

end Apart

theorem apart_start (c : Conversion) (made : FileTree) (inputs : List Path) (workers : Nat)
    (i : Fin inputs.length) : (start c made inputs workers).Apart c made i :=
  ⟨fun _ _ => .rfl, nofun, nofun⟩

/-- What is done with other inputs does not disturb an input that no other output reaches. -/
theorem apart_of_reaches {i : Fin inputs.length} (unreached : c.Unreached made inputs i)
    (reached : Reaches c (start c made inputs workers) s) : s.Apart c made i := by
  induction reached with
  | refl => exact apart_start c made inputs workers i
  | @tail s₁ s₂ before step apart =>
    have same := Reaches.sameDirectories before
    have serves := Reaches.serves before
    cases step with
    | stop => exact ⟨apart.unread, apart.decoded, apart.written⟩
    | @take j w waiting free =>
      refine ⟨fun waits => apart.unread ?_,
        fun g is => apart.decoded g (of_update (P := (· = .decoded g)) is nofun),
        fun bytes is => apart.written bytes (of_update (P := (·.output? = some bytes)) is nofun)⟩
      -- neither an input that waits nor one that was just taken is attempted
      rcases eq_or_ne i j with rfl | other
      · rw [waiting]
        rfl
      · simpa only [Function.update_of_ne other] using waits
    | @advance j board stage advances =>
      rcases eq_or_ne j i with rfl | other
      · exact apart.advance same serves advances
      · exact apart.advance_other same serves unreached other advances

/-- An input that no other output reaches does not fail if it can be converted alone. -/
theorem error?_eq_none {i : Fin inputs.length} (unreached : c.Unreached made inputs i)
    (alone : ∃ bytes t', c.Converts made (inputs.get i) (.ok bytes) t')
    (reached : Reaches c (start c made inputs workers) s) : (s.stage i).error? = none := by
  induction reached with
  | refl => rfl
  | tail before step fine =>
    cases step with
    | stop => exact fine
    | take => exact Option.eq_none_iff_forall_ne_some.2 fun e is =>
        nomatch fine.symm.trans (of_update (P := (·.error? = some e)) is nofun)
    | @advance j board stage advances =>
      have apart := apart_of_reaches unreached before
      refine Option.eq_none_iff_forall_ne_some.2 fun e fails => ?_
      rcases eq_or_ne i j with rfl | other
      · simp only [Function.update_self] at fails
        obtain ⟨bytes, t', converts⟩ := alone
        cases converts with
        | read found writes =>
          rcases advances.error_cases (Reaches.serves before) fails with
            fails' | ⟨was, unread⟩ | ⟨g, was, unwritten⟩
          · cases fine.symm.trans fails'
          · cases unread.symm.trans ((apart.graphOf_iff (by rw [was]; rfl)).2 found)
          · cases found.symm.trans (apart.decoded g was)
            obtain ⟨u', writes'⟩ := writes.ok_of_same (Reaches.sameDirectories before)
            cases (unwritten.unique writes').1
      · simp only [Function.update_of_ne other] at fails
        cases fine.symm.trans fails

/-- An input that was converted could have been converted alone, into the same output. -/
theorem Apart.of_converted {i : Fin inputs.length} (apart : s.Apart c made i)
    (converted : ∃ bytes, s.stage i = .converted bytes) :
    ∃ g t', c.graphOf made (inputs.get i) = .ok g ∧
      c.Writes made (inputs.get i) g (.ok (s.stage i).bytes) t' ∧
      (c.Unshared made inputs i →
        s.board.progress.tree.find (c.output (inputs.get i)) = .ok (.file (c.template.render g))) := by
  obtain ⟨bytes, is⟩ := converted
  obtain ⟨g, t', found, writes, there⟩ := apart.written bytes (by rw [is]; rfl)
  refine ⟨g, t', found, ?_, there⟩
  rw [is]
  exact writes

/-- The location of an output that no other output shares holds what the template prints. -/
theorem Apart.output_eq {i : Fin inputs.length} (apart : s.Apart c made i)
    (reached : Reaches c (start c made inputs workers) s) (unshared : c.Unshared made inputs i)
    (converted : ∃ bytes, s.stage i = .converted bytes) :
    ∃ g l, c.graphOf made (inputs.get i) = .ok g ∧
      made.locate (c.output (inputs.get i)) = .ok l ∧
      s.board.progress.tree.get? l = some (.file (c.template.render g)) := by
  obtain ⟨g, t', found, -, there⟩ := apart.of_converted converted
  obtain ⟨l, located, at_, -⟩ := FileTree.find_eq_ok.1 (there unshared)
  exact ⟨g, l, found, reached.sameDirectories.locate_iff.1 located, at_⟩

/-- The order in which inputs are taken cannot be told from the files, the number of converted
inputs and the number of bytes, if the outputs are apart and one order converts all inputs. The
other order may see a stop asked for, but too late for an input to be skipped. -/
theorem same_of_all_converted {workers' : Nat} {s' : Crew inputs workers'}
    (independent : c.Independent made inputs)
    (reached : Reaches c (start c made inputs workers) s)
    (all : ∀ i, ∃ bytes, s.stage i = .converted bytes)
    (reached' : Reaches c (start c made inputs workers') s') (complete' : s'.IsComplete)
    (late' : s'.board.stopAsked = true → ∀ i, s'.stage i ≠ .skipped) :
    s'.outcome = s.outcome ∧
      ∀ l, s'.board.progress.tree.get? l = s.board.progress.tree.get? l := by
  have apart (i : Fin inputs.length) : s.Apart c made i :=
    apart_of_reaches (independent.unreached i) reached
  have apart' (i : Fin inputs.length) : s'.Apart c made i :=
    apart_of_reaches (independent.unreached i) reached'
  have alone (i : Fin inputs.length) :
      ∃ bytes t', c.Converts made (inputs.get i) (.ok bytes) t' := by
    obtain ⟨g, t', found, writes, -⟩ := (apart i).of_converted (all i)
    exact ⟨_, t', .read found writes⟩
  have noneFailed (i : Fin inputs.length) (e : ConversionError) : s.stage i ≠ .failed e := by
    obtain ⟨bytes, is⟩ := all i
    rw [is]
    exact nofun
  have noneFailed' (i : Fin inputs.length) (e : ConversionError) : s'.stage i ≠ .failed e := by
    intro failed
    have fine := error?_eq_none (independent.unreached i) (alone i) reached'
    rw [failed] at fine
    cases fine
  have sound := sound_of_reaches reached
  have sound' := sound_of_reaches reached'
  have noneSkipped' : ∀ i, s'.stage i ≠ .skipped := by
    cases asked : s'.board.stopAsked with
    | true => exact late' asked
    | false => exact complete'.none_skipped sound' noneFailed' asked
  have all' := complete'.all_converted noneFailed' noneSkipped'
  constructor
  · have sameBytes (i : Fin inputs.length) : (s'.stage i).bytes = (s.stage i).bytes := by
      obtain ⟨g, t', found, writes, -⟩ := (apart i).of_converted (all i)
      obtain ⟨g', t'', found', writes', -⟩ := (apart' i).of_converted (all' i)
      cases found.symm.trans found'
      exact Except.ok.inj (writes.unique writes').1
    rw [outcome_of_unset (sound.unset noneFailed), outcome_of_unset (sound'.unset noneFailed'),
      reached.converted_of_all all, reached'.converted_of_all all', reached.bytesWritten_eq,
      reached'.bytesWritten_eq]
    simp only [sameBytes]
  · intro l
    by_cases isOutput : ∃ i : Fin inputs.length, made.locate (c.output (inputs.get i)) = .ok l
    · obtain ⟨i, here⟩ := isOutput
      have unshared := independent.unshared i
      obtain ⟨g, l₁, found, located, there⟩ := (apart i).output_eq reached unshared (all i)
      obtain ⟨g', l₂, found', located', there'⟩ := (apart' i).output_eq reached' unshared (all' i)
      cases here.symm.trans located
      cases here.symm.trans located'
      cases found.symm.trans found'
      rw [there, there']
    · have away (i : Fin inputs.length) : made.locate (c.output (inputs.get i)) ≠ .ok l :=
        fun here => isOutput ⟨i, here⟩
      rw [reached.get?_eq away, reached'.get?_eq away]

/-! ## One worker after the other -/

/-- What a worker does with its input, one step after the other. -/
inductive Advances (c : Conversion) (input : Path) (b : Board) (stage : Stage) :
    Board → Stage → Prop where
  | refl : Advances c input b stage b stage
  | tail {b₁ b₂ : Board} {stage₁ stage₂ : Stage} (before : Advances c input b stage b₁ stage₁)
      (last : c.Advance input b₁ stage₁ b₂ stage₂) : Advances c input b stage b₂ stage₂

theorem reaches_of_advances {i : Fin inputs.length} {board : Board} {stage : Stage}
    (advances : Advances c (inputs.get i) s.board (s.stage i) board stage) :
    Reaches c s { s with board, stage := Function.update s.stage i stage } := by
  induction advances with
  | refl =>
    rw [Function.update_eq_self]
    exact .refl
  | @tail b₁ b₂ stage₁ stage₂ _ last reached =>
    have here : Function.update s.stage i stage₁ i = stage₁ := Function.update_self ..
    have step := Step.advance
      (s := { s with board := b₁, stage := Function.update s.stage i stage₁ }) (here ▸ last)
    rw [Function.update_idem] at step
    exact reached.tail step

section

variable {b : Board} {input : Path} {p : Progress}

theorem advances_skipped (ended : b.stopAsked = true ∨ b.failed = true) :
    Advances c input b .taken b .skipped := by
  cases asked : b.stopAsked with
  | true => exact .tail .refl (.leave asked)
  | false =>
    have failed : b.failed = true := ended.resolve_left (by simp [asked])
    exact .tail (.tail .refl (.want asked)) (.drop failed)

theorem advances_allowed (notAsked : b.stopAsked = false) (noneFailed : b.failed = false) :
    Advances c input b .taken b .allowed :=
  .tail (.tail .refl (.want notAsked)) (.allow noneFailed)

/-- A conversion that succeeds, step by step. -/
theorem advances_converted {bytes : Nat} (notAsked : b.stopAsked = false)
    (noneFailed : b.failed = false)
    (converted : c.convertFile b.progress input = (.ok bytes, p)) :
    Advances c input b .taken
      { b with
        progress := { p with statistics := p.statistics.recordConverted bytes }
        converted := b.converted + 1 }
      (.converted bytes) := by
  rw [convertFile_eq] at converted
  split at converted
  · next g p₁ read =>
    have decoded : Advances c input b .taken { b with progress := p₁ } (.decoded g) :=
      (advances_allowed notAsked noneFailed).tail (.decode read)
    have written : Advances c input b .taken { b with progress := p } (.written bytes) :=
      decoded.tail (.write converted)
    exact (written.tail .count).tail .convert
  · cases converted

/-- A conversion that fails, step by step. -/
theorem advances_failed {e : ConversionError} (notAsked : b.stopAsked = false)
    (noneFailed : b.failed = false)
    (failed : c.convertFile b.progress input = (.error e, p)) :
    Advances c input b .taken
      { b with
        progress := { p with statistics := p.statistics.recordFailed }
        failed := true
        firstError := b.firstError.or (some e) }
      (.failed e) := by
  rw [convertFile_eq] at failed
  have refused : Advances c input b .taken { b with progress := p } (.refused e) := by
    split at failed
    · next g p₁ read =>
      have decoded : Advances c input b .taken { b with progress := p₁ } (.decoded g) :=
        (advances_allowed notAsked noneFailed).tail (.decode read)
      exact decoded.tail (.miswrite failed)
    · next e' p₁ read =>
      cases failed
      exact (advances_allowed notAsked noneFailed).tail (.misread read)
  exact ((refused.tail .note).tail .raise).tail .fail

end

/-- All inputs before a position are done, and none from there on was taken. -/
structure IsAt (s : Crew inputs workers) (k : Nat) : Prop where
  before : ∀ i : Fin inputs.length, i.val < k → (s.stage i).isDone = true
  behind : ∀ i : Fin inputs.length, k ≤ i.val → s.stage i = .waiting

/-- The next input is taken and gets done, if what its worker does comes to that. -/
theorem IsAt.next {k : Nat} (at_ : s.IsAt k) (inside : k < inputs.length) (w : Fin workers)
    {board : Board} {stage : Stage} (done : stage.isDone = true)
    (advances : Advances c inputs[k] s.board .taken board stage) :
    ∃ s' : Crew inputs workers, Reaches c s s' ∧ s'.board = board ∧ s'.IsAt (k + 1) := by
  let i : Fin inputs.length := ⟨k, inside⟩
  let s₁ : Crew inputs workers :=
    { s with
      stage := Function.update s.stage i .taken
      worker := Function.update s.worker i (some w) }
  have idle (j : Fin inputs.length) (busy : (s.stage j).isBusy = true) : False := by
    rcases Nat.lt_or_ge j.val k with before | behind
    · have done := at_.before j before
      cases is : s.stage j <;> simp [is, Stage.isBusy, Stage.isDone] at busy done
    · rw [at_.behind j behind] at busy
      cases busy
  have take : Step c s s₁ := .take (at_.behind i le_rfl) fun j busy => (idle j busy).elim
  have advances₁ : Advances c (inputs.get i) s₁.board (s₁.stage i) board stage := by
    rw [show s₁.stage i = .taken from Function.update_self ..]
    exact advances
  refine ⟨_, (Relation.ReflTransGen.single take).trans (reaches_of_advances advances₁), rfl, ?_, ?_⟩
  · intro j before
    rcases eq_or_ne j i with rfl | other
    · simpa [s₁] using done
    · have earlier : j.val ≠ k := fun same => other (Fin.ext same)
      simpa [s₁, other] using at_.before j (by omega)
  · intro j behind
    have other : j ≠ i := by
      rintro rfl
      exact absurd behind (Nat.not_succ_le_self k)
    simpa [s₁, other] using at_.behind j (by omega)

theorem IsAt.complete {k : Nat} (at_ : s.IsAt k) (ended : inputs.length ≤ k) : s.IsComplete :=
  fun i => at_.before i (by omega)

/-- The inputs that are left are skipped one after the other, once a flag is up. -/
theorem IsAt.skip_all {k : Nat} (at_ : s.IsAt k) (w : Fin workers)
    (ended : s.board.stopAsked = true ∨ s.board.failed = true) :
    ∃ s', Reaches c s s' ∧ s'.board = s.board ∧ s'.IsComplete := by
  induction left : inputs.length - k generalizing s k with
  | zero => exact ⟨s, .refl, rfl, at_.complete (by omega)⟩
  | succ n ih =>
    obtain ⟨s₁, first, board, at₁⟩ := at_.next (by omega) w rfl (advances_skipped ended)
    obtain ⟨s', rest, board', complete⟩ := ih at₁ (board ▸ ended) (by omega)
    exact ⟨s', first.trans rest, board'.trans board, complete⟩

/-- The inputs that are left are converted one after the other, as in a run. -/
theorem IsAt.convert_all {k : Nat} (at_ : s.IsAt k) (w : Fin workers)
    (notAsked : s.board.stopAsked = false) (noneFailed : s.board.failed = false)
    (unset : s.board.firstError = none) :
    ∃ s', Reaches c s s' ∧ s'.board.stopAsked = false ∧ s'.IsComplete ∧
      (s'.board.firstError, s'.board.progress) =
        c.convertAll s.board.progress (inputs.drop k) := by
  induction left : inputs.length - k generalizing s k with
  | zero =>
    refine ⟨s, .refl, notAsked, at_.complete (by omega), ?_⟩
    rw [List.drop_eq_nil_of_le (by omega), convertAll, unset]
  | succ n ih =>
    have inside : k < inputs.length := by omega
    rw [List.drop_eq_getElem_cons inside, convertAll]
    rcases converted : c.convertFile s.board.progress inputs[k] with ⟨e | bytes, p⟩
    · obtain ⟨s₁, first, board, at₁⟩ :=
        at_.next inside w rfl (advances_failed notAsked noneFailed converted)
      obtain ⟨s', rest, board', complete⟩ := at₁.skip_all (c := c) w (by simp [board])
      refine ⟨s', first.trans rest, ?_, complete, ?_⟩
      · simp [board', board, notAsked]
      · simp [board', board, unset]
    · obtain ⟨s₁, first, board, at₁⟩ :=
        at_.next inside w rfl (advances_converted notAsked noneFailed converted)
      obtain ⟨s', rest, notAsked', complete, same⟩ :=
        ih at₁ (by simp [board, notAsked]) (by simp [board, noneFailed]) (by simp [board, unset])
          (by omega)
      refine ⟨s', first.trans rest, notAsked', complete, same.trans ?_⟩
      rw [board]

/-- The two counts of converted inputs agree when nothing is left to do. -/
theorem Reaches.converted_of_complete (reached : Reaches c (start c made inputs workers) s)
    (complete : s.IsComplete) : s.board.converted = s.board.progress.statistics.converted := by
  have each (i : Fin inputs.length) : (s.stage i).tally = (s.stage i).conversions := by
    rcases complete.cases i with ⟨bytes, is⟩ | ⟨e, is⟩ | is <;> rw [is] <;> rfl
  rw [reached.tally_eq, reached.converted_eq, Finset.sum_congr rfl fun i _ => each i]

theorem isAt_start (c : Conversion) (made : FileTree) (inputs : List Path) (workers : Nat) :
    (start c made inputs workers).IsAt 0 :=
  ⟨fun _ => nofun, fun _ _ => rfl⟩

/-- A run that takes its inputs in order is one of the schedules of any number of workers. -/
theorem run_isSchedule {t : FileTree} (creatable : (t.createDirectories c.outputDir).1 = .ok ())
    (inputs : List Path) (stopAsked : Bool) (w : Fin workers) :
    ∃ s : Crew inputs workers,
      Reaches c (start c (t.createDirectories c.outputDir).2 inputs workers) s ∧ s.IsComplete ∧
      s.board.stopAsked = stopAsked ∧
      s.outcome = (c.run t inputs stopAsked).outcome ∧
      s.board.progress.tree = (c.run t inputs stopAsked).tree ∧
      s.board.progress.statistics = (c.run t inputs stopAsked).statistics ∧
      s.board.progress.attempts.reverse = (c.run t inputs stopAsked).attempts := by
  let made := (t.createDirectories c.outputDir).2
  have schedule : ∃ s : Crew inputs workers, Reaches c (start c made inputs workers) s ∧
      s.board.stopAsked = stopAsked ∧ s.IsComplete ∧
      (s.board.firstError, s.board.progress) =
        c.convertAll (c.begin made inputs) (if stopAsked then [] else inputs) := by
    have atStart := isAt_start c made inputs workers
    cases stopAsked with
    | false => exact atStart.convert_all w rfl rfl rfl
    | true =>
      obtain ⟨s, skipped, board, complete⟩ := IsAt.skip_all (c := c)
        (s := { start c made inputs workers with
          board := { (start c made inputs workers).board with stopAsked := true } })
        ⟨atStart.before, atStart.behind⟩ w (.inl rfl)
      exact ⟨s, (Relation.ReflTransGen.single (.stop _)).trans skipped, by rw [board], complete,
        by rw [board]; rfl⟩
  obtain ⟨s, reached, stop, complete, same⟩ := schedule
  have run : c.run t inputs stopAsked = s.board.progress.finish s.board.firstError := by
    rw [run_of_creatable creatable]
    dsimp only
    rw [← same]
  refine ⟨s, reached, complete, stop, ?_, by rw [run]; rfl, by rw [run]; rfl,
    by rw [run, Progress.attempts_finish]⟩
  rw [run]
  cases set : s.board.firstError with
  | some e => exact outcome_eq_error.2 set
  | none =>
    rw [outcome_of_unset set, reached.converted_of_complete complete]
    simp only [Progress.finish, Progress.summary, reached.total_eq]

/-- Any number of workers give and leave what a run that takes its inputs in order gives and leaves,
if that converts all of them and no output is in the way of another file. -/
theorem eq_run_of_independent {t : FileTree} {stopAsked : Bool} {summary : Summary}
    (creatable : (t.createDirectories c.outputDir).1 = .ok ())
    (independent : c.Independent (t.createDirectories c.outputDir).2 inputs)
    (ok : (c.run t inputs stopAsked).outcome = .ok summary) (whole : summary.cancelled = false)
    (reached : Reaches c (start c (t.createDirectories c.outputDir).2 inputs workers) s)
    (complete : s.IsComplete) (late : s.board.stopAsked = true → ∀ i, s.stage i ≠ .skipped) :
    s.outcome = (c.run t inputs stopAsked).outcome ∧
      ∀ l, s.board.progress.tree.get? l = (c.run t inputs stopAsked).tree.get? l := by
  obtain ⟨s₀, reached₀, complete₀, -, outcome, tree, -⟩ :=
    run_isSchedule creatable inputs stopAsked (0 : Fin 1)
  have all := complete₀.all_of_outcome reached₀ (outcome.trans ok) whole
  obtain ⟨sameOutcome, sameFiles⟩ :=
    same_of_all_converted independent reached₀ all reached complete late
  exact ⟨sameOutcome.trans outcome, fun l => by rw [sameFiles l, tree]⟩

end Crew

/-! ## All schedules -/

/-- Workers that are done, however their steps were ordered and whenever a stop was asked for, have
settled the run. If the outputs are apart and all inputs were converted, every other order, and
every other number of workers, gives the same result and leaves the same files, unless it skips
inputs because a stop was asked for. -/
theorem workers_settle (reached : Crew.Reaches c (.start c made inputs workers) s)
    (complete : s.IsComplete) :
    s.Settled c ∧
      (c.Independent made inputs → (∀ i, ∃ bytes, s.stage i = .converted bytes) →
        ∀ {workers' : Nat} {s' : Crew inputs workers'},
          Crew.Reaches c (.start c made inputs workers') s' → s'.IsComplete →
          (s'.board.stopAsked = true → ∀ i, s'.stage i ≠ .skipped) →
          s'.outcome = s.outcome ∧
            ∀ l, s'.board.progress.tree.get? l = s.board.progress.tree.get? l) :=
  ⟨Crew.settled_of_complete reached complete, fun independent all _ _ reached' complete' late' =>
    Crew.same_of_all_converted independent reached all reached' complete' late'⟩

/-- Two workers and two inputs with outputs of their own: every order of steps ends the same way. -/
theorem workers_settle_twoInputs :
    let inputs := [Path.ofString "a/g.xml", .ofString "b/h.xml"]
    let t := FileTree.ofFiles [(.ofString "a/g.xml", Bytes.ofAscii "<g><node id=\"1\"/></g>"),
      (.ofString "b/h.xml", Bytes.ofAscii "<g/>")]
    let start := Crew.start countNodes (t.createDirectories countNodes.outputDir).2 inputs 2
    countNodes.Independent (t.createDirectories countNodes.outputDir).2 inputs ∧
      ∃ s, Crew.Reaches countNodes start s ∧ s.IsComplete ∧ s.Settled countNodes ∧
        (∀ i, ∃ bytes, s.stage i = .converted bytes) ∧
        ∀ s' : Crew inputs 2, Crew.Reaches countNodes start s' → s'.IsComplete →
          s'.board.stopAsked = false → s'.outcome = .ok ⟨2, 2, 2, false⟩ := by
  intro inputs t start
  have creatable : (t.createDirectories countNodes.outputDir).1 = .ok () := by decide +kernel
  have independent : countNodes.Independent (t.createDirectories countNodes.outputDir).2 inputs :=
    ⟨by decide +kernel, by decide +kernel⟩
  obtain ⟨s, reached, complete, notAsked, outcome, -⟩ :=
    Crew.run_isSchedule creatable inputs false (0 : Fin 2)
  have ok : (countNodes.run t inputs false).outcome = .ok ⟨2, 2, 2, false⟩ := by decide +kernel
  obtain ⟨settled, sameOutcome⟩ := workers_settle reached complete
  have noneFailed (i : Fin inputs.length) (e : ConversionError) : s.stage i ≠ .failed e := by
    intro failed
    obtain ⟨e', error⟩ := settled.error_iff.2 ⟨i, e, failed⟩
    cases error.symm.trans (outcome.trans ok)
  have all := (settled.converted noneFailed notAsked).1
  refine ⟨independent, s, reached, complete, settled, all,
    fun s' reached' complete' notAsked' => ?_⟩
  have late' : s'.board.stopAsked = true → ∀ i, s'.stage i ≠ .skipped :=
    fun asked => nomatch notAsked'.symm.trans asked
  exact ((sameOutcome independent all reached' complete' late').1.trans outcome).trans ok

end GraphScribe.Conversion
