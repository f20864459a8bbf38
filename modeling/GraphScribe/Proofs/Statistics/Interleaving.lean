import GraphScribe.Diagnostics
import Mathlib.Algebra.BigOperators.Fin

/-!
# Counters shared by calls

The counters of a run lie in memory, a word each, and any number of calls use them at the same time.
A call is a list of accesses to single counters: a conversion is recorded by two, a snapshot loads
one counter after the other. A schedule says whose turn it is, access by access, so calls see what
others have done by halves.

* `Sound`: a counter holds what was added to it so far, as a word.
* `reading_seen`: what a snapshot holds was in the counters at some moment while it was taken.
* `updates_kept`: nothing that was recorded is lost, whatever the schedule.
-/

namespace GraphScribe

/-- A request whose answer tells how far the conversion has come. -/
def Diagnostics.readsCounters (method target : String) : Bool :=
  (method = "GET" || method = "HEAD") && pathOf target.toList = "/api/stats".toList

/-- Any other request has one answer. -/
theorem Diagnostics.respond_eq {method target : String}
    (unread : readsCounters method target = false) (s s' : Statistics) :
    respond s method target = respond s' method target := by
  unfold respond reportAt?
  by_cases health : pathOf target.toList = "/api/health".toList
  · rw [if_pos health, if_pos health]
  · rw [if_neg health, if_neg health]
    by_cases stats : pathOf target.toList = "/api/stats".toList
    · rw [if_pos stats, if_pos stats]
      simp only [readsCounters, stats, decide_true, Bool.and_true, Bool.or_eq_false_iff,
        decide_eq_false_iff_not] at unread
      simp only [unread.1, unread.2, if_false]
    · rw [if_neg stats, if_neg stats]

namespace Statistics

/-! ## Calls -/

/-- A counter in memory. -/
inductive Counter where
  | total
  | converted
  | failed
  | bytesWritten
deriving DecidableEq, Repr

/-- An access to one counter. Nothing comes in between. -/
inductive Access where
  | add (counter : Counter) (amount : Nat)
  | load (counter : Counter)
deriving DecidableEq, Repr

namespace Access

def counter : Access → Counter
  | add counter _ => counter
  | load counter => counter

/-- What it adds to a counter. -/
def amount (counter : Counter) : Access → Nat
  | add counter' amount => if counter' = counter then amount else 0
  | load _ => 0

/-- The counters after it. Sums wrap. -/
def apply (counters : Counter → UInt64) : Access → Counter → UInt64
  | add counter amount => Function.update counters counter (counters counter + .ofNat amount)
  | load _ => counters

theorem apply_eq (a : Access) (counters : Counter → UInt64) (counter : Counter) :
    a.apply counters counter = counters counter + .ofNat (a.amount counter) := by
  cases a with
  | add counter' n =>
    by_cases same : counter' = counter
    · subst same
      simp [apply, amount]
    · simp [apply, amount, same, Function.update_of_ne (Ne.symm same)]
  | load => simp [apply, amount]

end Access

/-- What is asked of the counters: to record an input, to show them, or to answer a request. -/
inductive Call where
  | converted (bytes : Nat)
  | failed
  | snapshot
  | request (method target : String)
deriving DecidableEq, Repr

/-- A snapshot loads the counters one after the other. -/
def loads : List Access :=
  [.load .total, .load .converted, .load .failed, .load .bytesWritten]

namespace Call

/-- What a call does, in order. -/
def accesses : Call → List Access
  | converted bytes => [.add .converted 1, .add .bytesWritten bytes]
  | failed => [.add .failed 1]
  | snapshot => loads
  | request method target => if Diagnostics.readsCounters method target then loads else []

/-- It records a converted input. -/
def isConverted : Call → Bool
  | converted _ => true
  | _ => false

/-- It records a failed input. -/
def isFailed : Call → Bool
  | failed => true
  | _ => false

/-- It records an input. -/
def records (c : Call) : Bool := c.isConverted || c.isFailed

/-- The bytes that it records. -/
def bytes : Call → Nat
  | converted bytes => bytes
  | _ => 0

/-- The statistics after a call that is not disturbed. -/
def record (s : Statistics) : Call → Statistics
  | converted bytes => s.recordConverted bytes
  | failed => s.recordFailed
  | _ => s

end Call

/-- How far a call has come: what it has done, with what it found in the counter each time, and what
is left to do. -/
structure Underway where
  performed : List (Access × UInt64) := []
  left : List Access
deriving DecidableEq, Repr

namespace Underway

/-- The counters that a snapshot has loaded. -/
def reading? (u : Underway) : Option Statistics :=
  match u.performed with
  | [(.load .total, total), (.load .converted, converted), (.load .failed, failed),
      (.load .bytesWritten, bytesWritten)] =>
    some ⟨total.toNat, converted.toNat, failed.toNat, bytesWritten⟩
  | _ => none

/-- The answer to a request, when nothing is left to do. One that reads no counters has the same
answer whatever they are. -/
def response? (u : Underway) (method target : String) : Option Diagnostics.Response :=
  if u.left.isEmpty then
    some (Diagnostics.respond (u.reading?.getD { total := 0 }) method target)
  else none

/-- What a call shows in the end: a snapshot its reading, a request the answer that follows from
it. -/
def Shows (u : Underway) (r : Statistics) : Call → Prop
  | .converted _ | .failed => False
  | .snapshot => u.reading? = some r
  | .request method target => u.response? method target = some (Diagnostics.respond r method target)

end Underway

/-- The counters, and how far each of the calls has come. -/
structure Shared (calls : List Call) where
  counters : Counter → UInt64
  underway : Fin calls.length → Underway

namespace Shared

variable {calls : List Call}

/-- Before any access. -/
def start (total : UInt64) (calls : List Call) : Shared calls where
  counters := Function.update (fun _ => 0) .total total
  underway i := { left := (calls.get i).accesses }

/-- A call makes its next access, if one is left. -/
def step (s : Shared calls) (i : Fin calls.length) : Shared calls :=
  match (s.underway i).left with
  | [] => s
  | a :: left =>
    { counters := a.apply s.counters
      underway := Function.update s.underway i
        ⟨(s.underway i).performed ++ [(a, s.counters a.counter)], left⟩ }

/-- Calls make accesses in the order of a schedule. -/
def run (s : Shared calls) (schedule : List (Fin calls.length)) : Shared calls :=
  schedule.foldl step s

/-- What the counters show at this moment. -/
def statistics (s : Shared calls) : Statistics where
  total := (s.counters .total).toNat
  converted := (s.counters .converted).toNat
  failed := (s.counters .failed).toNat
  bytesWritten := s.counters .bytesWritten

end Shared

/-! ## What was added -/

/-- What some accesses add to a counter. -/
def amountOf (counter : Counter) (accesses : List Access) : Nat :=
  (accesses.map (·.amount counter)).sum

theorem amountOf_append (counter : Counter) (first second : List Access) :
    amountOf counter (first ++ second) = amountOf counter first + amountOf counter second := by
  simp [amountOf]

theorem amountOf_cons (counter : Counter) (a : Access) (rest : List Access) :
    amountOf counter (a :: rest) = a.amount counter + amountOf counter rest := by
  simp [amountOf]

namespace Shared

variable {calls : List Call} {total : UInt64} {s : Shared calls} {i : Fin calls.length}
  {schedule : List (Fin calls.length)} {counter : Counter}

/-- What was added to a counter so far. -/
def recorded (s : Shared calls) (counter : Counter) : Nat :=
  ∑ i, amountOf counter ((s.underway i).performed.map Prod.fst)

theorem step_of_nil (nothing : (s.underway i).left = []) : s.step i = s := by
  rw [step, nothing]

section Turn

variable {a : Access} {left : List Access}

theorem counters_step_of_cons (next : (s.underway i).left = a :: left) :
    (s.step i).counters = a.apply s.counters := by
  rw [step, next]

theorem underway_step_of_cons (next : (s.underway i).left = a :: left) :
    (s.step i).underway = Function.update s.underway i
      ⟨(s.underway i).performed ++ [(a, s.counters a.counter)], left⟩ := by
  rw [step, next]

theorem underway_step_self (next : (s.underway i).left = a :: left) :
    (s.step i).underway i =
      ⟨(s.underway i).performed ++ [(a, s.counters a.counter)], left⟩ := by
  rw [underway_step_of_cons next, Function.update_self]

theorem underway_step_of_ne {j : Fin calls.length} (other : j ≠ i) :
    (s.step i).underway j = s.underway j := by
  cases next : (s.underway i).left with
  | nil => rw [step_of_nil next]
  | cons => rw [underway_step_of_cons next, Function.update_of_ne other]

/-- An access adds its amount to what was added. -/
theorem recorded_step_of_cons (next : (s.underway i).left = a :: left) (counter : Counter) :
    (s.step i).recorded counter = s.recorded counter + a.amount counter := by
  let share (_ : Fin calls.length) (u : Underway) : Nat :=
    amountOf counter (u.performed.map Prod.fst)
  have own : share i ⟨(s.underway i).performed ++ [(a, s.counters a.counter)], left⟩ =
      share i (s.underway i) + a.amount counter := by
    simp [share, amountOf]
  show ∑ j, share j ((s.step i).underway j) = ∑ j, share j (s.underway j) + a.amount counter
  rw [underway_step_of_cons next]
  simp only [Function.apply_update share]
  rw [Finset.sum_update_of_mem (Finset.mem_univ i), own,
    Finset.sum_eq_add_sum_sdiff_singleton i (fun j => share j (s.underway j))
      (fun absent => absurd (Finset.mem_univ i) absent)]
  omega

end Turn

theorem le_recorded_step (s : Shared calls) (i : Fin calls.length) (counter : Counter) :
    s.recorded counter ≤ (s.step i).recorded counter := by
  cases next : (s.underway i).left with
  | nil => rw [step_of_nil next]
  | cons a left =>
    rw [recorded_step_of_cons next]
    exact Nat.le_add_right _ _

theorem le_recorded_run (s : Shared calls) (schedule : List (Fin calls.length))
    (counter : Counter) : s.recorded counter ≤ (s.run schedule).recorded counter := by
  induction schedule generalizing s with
  | nil => exact Nat.le_refl _
  | cons i schedule ih => exact (le_recorded_step s i counter).trans (ih (s.step i))

/-- How the counters and the calls hang together. -/
structure Sound (total : UInt64) (s : Shared calls) : Prop where
  /-- A call makes its accesses in order. -/
  accesses : ∀ i, (s.underway i).performed.map Prod.fst ++ (s.underway i).left =
    (calls.get i).accesses
  /-- A counter holds what was added to it, as a word. -/
  counters : ∀ counter, s.counters counter =
    (start total calls).counters counter + .ofNat (s.recorded counter)

theorem sound_start (total : UInt64) (calls : List Call) : (start total calls).Sound total where
  accesses _ := rfl
  counters counter := by simp [recorded, start, amountOf]

theorem Sound.step (sound : s.Sound total) (i : Fin calls.length) : (s.step i).Sound total := by
  cases next : (s.underway i).left with
  | nil => rwa [step_of_nil next]
  | cons a left =>
    refine ⟨fun j => ?_, fun counter => ?_⟩
    · rcases eq_or_ne j i with rfl | other
      · have whole := sound.accesses j
        rw [next] at whole
        rw [underway_step_self next]
        simpa using whole
      · rw [underway_step_of_ne other]
        exact sound.accesses j
    · rw [recorded_step_of_cons next, UInt64.ofNat_add, ← UInt64.add_assoc, ← sound.counters,
        counters_step_of_cons next]
      exact a.apply_eq s.counters counter

theorem Sound.run (sound : s.Sound total) (schedule : List (Fin calls.length)) :
    (s.run schedule).Sound total := by
  induction schedule generalizing s with
  | nil => exact sound
  | cons i schedule ih => exact ih (sound.step i)

end Shared

/-! ## What calls have to add -/

/-- What some calls add to a counter when nothing is left to do. -/
def due (counter : Counter) (calls : List Call) : Nat :=
  (calls.map fun c => amountOf counter c.accesses).sum

theorem amountOf_loads (counter : Counter) : amountOf counter loads = 0 := rfl

/-- Only recording adds to counters. -/
theorem Call.amountOf_eq_zero {c : Call} (reads : c.records = false) (counter : Counter) :
    amountOf counter c.accesses = 0 := by
  cases c with
  | converted => cases reads
  | failed => cases reads
  | snapshot => exact amountOf_loads counter
  | request method target =>
    rw [Call.accesses]
    split
    · exact amountOf_loads counter
    · rfl

theorem due_cons (counter : Counter) (c : Call) (calls : List Call) :
    due counter (c :: calls) = amountOf counter c.accesses + due counter calls := by
  simp [due]

theorem due_total (calls : List Call) : due .total calls = 0 := by
  induction calls with
  | nil => rfl
  | cons c calls ih =>
    rw [due_cons, ih]
    cases c with
    | converted | failed | snapshot => rfl
    | request => rw [Call.amountOf_eq_zero rfl]

theorem due_converted (calls : List Call) : due .converted calls = calls.countP Call.isConverted := by
  induction calls with
  | nil => rfl
  | cons c calls ih =>
    rw [due_cons, ih, List.countP_cons, Nat.add_comm]
    cases c with
    | converted | failed | snapshot => rfl
    | request => rw [Call.amountOf_eq_zero rfl]; rfl

theorem due_failed (calls : List Call) : due .failed calls = calls.countP Call.isFailed := by
  induction calls with
  | nil => rfl
  | cons c calls ih =>
    rw [due_cons, ih, List.countP_cons, Nat.add_comm]
    cases c with
    | converted | failed | snapshot => rfl
    | request => rw [Call.amountOf_eq_zero rfl]; rfl

theorem due_bytesWritten (calls : List Call) :
    due .bytesWritten calls = (calls.map Call.bytes).sum := by
  induction calls with
  | nil => rfl
  | cons c calls ih =>
    rw [due_cons, ih, List.map_cons, List.sum_cons]
    cases c with
    | converted bytes => simp [amountOf, Call.accesses, Access.amount, Call.bytes]
    | failed | snapshot => rfl
    | request => rw [Call.amountOf_eq_zero rfl]; rfl

/-- Each input is recorded as converted or as failed. -/
theorem countP_records (calls : List Call) :
    calls.countP Call.records = calls.countP Call.isConverted + calls.countP Call.isFailed := by
  induction calls with
  | nil => rfl
  | cons c calls ih =>
    simp only [List.countP_cons, ih]
    cases c <;> simp [Call.records, Call.isConverted, Call.isFailed] <;> omega

/-- What the calls record when they do not disturb each other. -/
theorem foldl_record (calls : List Call) (s : Statistics) :
    calls.foldl Call.record s =
      { total := s.total
        converted := s.converted + due .converted calls
        failed := s.failed + due .failed calls
        bytesWritten := s.bytesWritten + .ofNat (due .bytesWritten calls) } := by
  simp only [due_converted, due_failed, due_bytesWritten]
  induction calls generalizing s with
  | nil => simp
  | cons c calls ih =>
    rw [List.foldl_cons, ih]
    cases c <;>
      simp [Call.record, Call.isConverted, Call.isFailed, Call.bytes, recordConverted,
        recordFailed, List.countP_cons, UInt64.ofNat_add, UInt64.add_assoc] <;> omega

/-- One may be seen before the other. -/
structure Precedes (a b : Statistics) : Prop where
  total : b.total = a.total
  converted : a.converted ≤ b.converted
  failed : a.failed ≤ b.failed
  pending : b.pending ≤ a.pending

/-- The more is counted, the less is pending. -/
theorem Precedes.of_le {a b : Statistics} (total : b.total = a.total)
    (converted : a.converted ≤ b.converted) (failed : a.failed ≤ b.failed) : a.Precedes b := by
  refine ⟨total, converted, failed, ?_⟩
  unfold Statistics.pending
  omega

namespace Shared

variable {calls : List Call} {total : UInt64} {s : Shared calls} {i : Fin calls.length}
  {schedule : List (Fin calls.length)} {counter : Counter}

/-! ## The balance of a run -/

/-- What calls still have to add to a counter. -/
def outstanding (s : Shared calls) (counter : Counter) : Nat :=
  ∑ i, amountOf counter (s.underway i).left

theorem Sound.recorded_add_outstanding (sound : s.Sound total) (counter : Counter) :
    s.recorded counter + s.outstanding counter = due counter calls := by
  have whole (i : Fin calls.length) :
      amountOf counter ((s.underway i).performed.map Prod.fst) +
        amountOf counter (s.underway i).left = amountOf counter calls[i].accesses := by
    rw [← amountOf_append, sound.accesses i]
    rfl
  rw [recorded, outstanding, ← Finset.sum_add_distrib, due]
  simp only [whole]
  exact Fin.sum_univ_fun_getElem calls fun c => amountOf counter c.accesses

theorem Sound.recorded_le_due (sound : s.Sound total) (counter : Counter) :
    s.recorded counter ≤ due counter calls := by
  have balance := sound.recorded_add_outstanding counter
  omega

/-- Every call that records an input has done so. -/
def Settled (s : Shared calls) : Prop :=
  ∀ i, (calls.get i).records → (s.underway i).left = []

instance (s : Shared calls) : Decidable s.Settled :=
  inferInstanceAs (Decidable (∀ i, _ → (s.underway i).left = []))

theorem Sound.recorded_eq_due (sound : s.Sound total) (settled : s.Settled) (counter : Counter) :
    s.recorded counter = due counter calls := by
  have nothing : s.outstanding counter = 0 := by
    refine Finset.sum_eq_zero fun i _ => ?_
    cases records : (calls.get i).records with
    | true =>
      rw [settled i records]
      rfl
    | false =>
      have all := Call.amountOf_eq_zero records counter
      rw [← sound.accesses i, amountOf_append] at all
      omega
  have balance := sound.recorded_add_outstanding counter
  omega

/-- At most one input is counted for a call. -/
theorem Sound.recorded_le_countP (sound : s.Sound total) :
    s.recorded .converted + s.recorded .failed ≤ calls.countP Call.records := by
  rw [countP_records, ← due_converted, ← due_failed]
  exact Nat.add_le_add (sound.recorded_le_due .converted) (sound.recorded_le_due .failed)

/-- What the counters show is what was added to them. -/
theorem Sound.statistics_eq (sound : s.Sound total)
    (fewer : calls.countP Call.records < 2 ^ 63) :
    s.statistics =
      { total := total.toNat
        converted := s.recorded .converted
        failed := s.recorded .failed
        bytesWritten := .ofNat (s.recorded .bytesWritten) } := by
  have unchanged : s.recorded .total = 0 := by
    have most := sound.recorded_le_due .total
    rw [due_total] at most
    omega
  have most := sound.recorded_le_countP
  simp only [statistics, sound.counters, unchanged]
  simp [start]
  omega

/-- The counters only go on. -/
theorem Sound.precedes_run (sound : s.Sound total) (fewer : calls.countP Call.records < 2 ^ 63)
    (schedule : List (Fin calls.length)) :
    s.statistics.Precedes (s.run schedule).statistics := by
  rw [sound.statistics_eq fewer, (sound.run schedule).statistics_eq fewer]
  exact .of_le rfl (le_recorded_run s schedule .converted) (le_recorded_run s schedule .failed)

/-- When every input is recorded, the counters show what they would show had no call disturbed
another. -/
theorem Sound.statistics_settled (sound : s.Sound total)
    (fewer : calls.countP Call.records < 2 ^ 63) (settled : s.Settled) :
    s.statistics = calls.foldl Call.record { total := total.toNat } := by
  rw [sound.statistics_eq fewer, foldl_record]
  simp [sound.recorded_eq_due settled]

/-- From then on nothing changes. -/
theorem Sound.settled_run (sound : s.Sound total) (settled : s.Settled)
    (schedule : List (Fin calls.length)) : (s.run schedule).statistics = s.statistics := by
  have same (counter : Counter) : (s.run schedule).recorded counter = s.recorded counter := by
    have less := le_recorded_run s schedule counter
    have most := (sound.run schedule).recorded_le_due counter
    rw [sound.recorded_eq_due settled] at less ⊢
    omega
  have counters (counter : Counter) : (s.run schedule).counters counter = s.counters counter := by
    rw [(sound.run schedule).counters, sound.counters, same]
  simp only [statistics, counters]

/-! ## Turns of a call -/

theorem run_append (s : Shared calls) (first second : List (Fin calls.length)) :
    s.run (first ++ second) = (s.run first).run second :=
  List.foldl_append

theorem run_concat (s : Shared calls) (schedule : List (Fin calls.length)) (i : Fin calls.length) :
    s.run (schedule ++ [i]) = (s.run schedule).step i := by
  rw [run_append]
  rfl

theorem left_step (s : Shared calls) (i : Fin calls.length) :
    ((s.step i).underway i).left = (s.underway i).left.tail := by
  cases next : (s.underway i).left with
  | nil =>
    rw [step_of_nil next, next]
    rfl
  | cons a left =>
    rw [underway_step_self next]
    rfl

/-- A call never waits: each turn brings it an access further. -/
theorem left_run (s : Shared calls) (schedule : List (Fin calls.length)) (i : Fin calls.length) :
    ((s.run schedule).underway i).left = (s.underway i).left.drop (schedule.count i) := by
  induction schedule generalizing s with
  | nil => rfl
  | cons j schedule ih =>
    rw [show s.run (j :: schedule) = (s.step j).run schedule from rfl, ih]
    rcases eq_or_ne i j with rfl | other
    · rw [left_step, List.count_cons_self, List.drop_tail]
    · rw [underway_step_of_ne other, List.count_cons_of_ne (Ne.symm other)]

/-- A call that records nothing changes no counter. -/
theorem Sound.counters_step (sound : s.Sound total) (reads : (calls.get i).records = false) :
    (s.step i).counters = s.counters := by
  cases next : (s.underway i).left with
  | nil => rw [step_of_nil next]
  | cons a left =>
    funext counter
    have all := Call.amountOf_eq_zero reads counter
    rw [← sound.accesses i, amountOf_append, next, amountOf_cons] at all
    have none : a.amount counter = 0 := by omega
    rw [counters_step_of_cons next, a.apply_eq, none]
    simp

/-- What a call finds in a counter was there at some moment. -/
theorem performed_run (s : Shared calls) (later : List (Fin calls.length)) (i : Fin calls.length) :
    ∃ more, ((s.run later).underway i).performed = (s.underway i).performed ++ more ∧
      ∀ p ∈ more, ∃ front, front <+: later ∧ (s.run front).counters p.1.counter = p.2 := by
  induction later using List.reverseRecOn with
  | nil => exact ⟨[], (List.append_nil _).symm, fun _ found => nomatch found⟩
  | append_singleton later j ih =>
    obtain ⟨more, performed, seen⟩ := ih
    have still (p : Access × UInt64) (found : p ∈ more) :
        ∃ front, front <+: later ++ [j] ∧ (s.run front).counters p.1.counter = p.2 :=
      (seen p found).imp fun _ before => before.imp_left (·.trans (List.prefix_append _ _))
    rw [run_concat]
    rcases eq_or_ne i j with rfl | other
    · cases next : ((s.run later).underway i).left with
      | nil => exact ⟨more, by rw [step_of_nil next, performed], still⟩
      | cons a left =>
        refine ⟨more ++ [(a, (s.run later).counters a.counter)], ?_, ?_⟩
        · rw [underway_step_self next, performed, List.append_assoc]
        · intro p found
          rcases List.mem_append.mp found with earlier | now
          · exact still p earlier
          · cases List.mem_singleton.mp now
            exact ⟨later, List.prefix_append _ _, rfl⟩
    · exact ⟨more, by rw [underway_step_of_ne other, performed], still⟩

end Shared

/-! ## Snapshots -/

/-- What was found in the counters when all are loaded. -/
theorem Underway.reading?_of_loads {u : Underway} (whole : u.performed.map Prod.fst = loads) :
    ∃ found : Counter → UInt64, (∀ counter, (.load counter, found counter) ∈ u.performed) ∧
      u.reading? = some
        { total := (found .total).toNat
          converted := (found .converted).toNat
          failed := (found .failed).toNat
          bytesWritten := found .bytesWritten } := by
  obtain ⟨performed, left⟩ := u
  match performed, whole with
  | [(_, total), (_, converted), (_, failed), (_, bytesWritten)], whole =>
    simp only [loads, List.map_cons, List.map_nil, List.cons.injEq, and_true] at whole
    obtain ⟨rfl, rfl, rfl, rfl⟩ := whole
    refine ⟨fun
      | .total => total
      | .converted => converted
      | .failed => failed
      | .bytesWritten => bytesWritten, fun counter => ?_, rfl⟩
    cases counter <;> simp

namespace Shared

variable {calls : List Call} {total : UInt64} {s : Shared calls} {i : Fin calls.length}

section Shown

variable {later : List (Fin calls.length)} (sound : s.Sound total)
  (begun : (s.underway i).performed = []) (ended : ((s.run later).underway i).left = [])

include sound begun ended

/-- Each number in a reading was in its counter at some moment while the reading was taken. -/
theorem reading_seen (reads : (calls.get i).accesses = loads) :
    ∃ moment : Counter → List (Fin calls.length), (∀ counter, moment counter <+: later) ∧
      ((s.run later).underway i).reading? = some
        { total := (s.run (moment .total)).statistics.total
          converted := (s.run (moment .converted)).statistics.converted
          failed := (s.run (moment .failed)).statistics.failed
          bytesWritten := (s.run (moment .bytesWritten)).statistics.bytesWritten } := by
  have whole := (sound.run later).accesses i
  rw [ended, List.append_nil, reads] at whole
  obtain ⟨found, loaded, reading⟩ := Underway.reading?_of_loads whole
  obtain ⟨more, performed, seen⟩ := performed_run s later i
  rw [begun, List.nil_append] at performed
  rw [performed] at loaded
  choose moment earlier held using fun counter => seen _ (loaded counter)
  have same (counter : Counter) : found counter = (s.run (moment counter)).counters counter :=
    (held counter).symm
  refine ⟨moment, earlier, ?_⟩
  rw [reading]
  simp only [statistics, same]

/-- So was each number that a call shows. -/
theorem shown_seen (reads : (calls.get i).records = false) :
    ∃ moment : Counter → List (Fin calls.length), (∀ counter, moment counter <+: later) ∧
      ((s.run later).underway i).Shows
        { total := (s.run (moment .total)).statistics.total
          converted := (s.run (moment .converted)).statistics.converted
          failed := (s.run (moment .failed)).statistics.failed
          bytesWritten := (s.run (moment .bytesWritten)).statistics.bytesWritten }
        (calls.get i) := by
  cases call : calls.get i with
  | converted | failed =>
    rw [call] at reads
    cases reads
  | snapshot => exact reading_seen sound begun ended (by rw [call]; rfl)
  | request method target =>
    simp only [Underway.Shows, Underway.response?, ended, List.isEmpty_nil, if_true,
      Option.some.injEq]
    cases counters : Diagnostics.readsCounters method target with
    | true =>
      obtain ⟨moment, earlier, reading⟩ :=
        reading_seen sound begun ended (by rw [call, Call.accesses, if_pos counters])
      exact ⟨moment, earlier, by rw [reading]; rfl⟩
    | false =>
      exact ⟨fun _ => [], fun _ => List.nil_prefix, Diagnostics.respond_eq counters _ _⟩

/-- What a call shows lies between the progress at its begin and that at its end. -/
theorem shown_between (fewer : calls.countP Call.records < 2 ^ 63)
    (reads : (calls.get i).records = false) :
    ∃ r, ((s.run later).underway i).Shows r (calls.get i) ∧
      s.statistics.Precedes r ∧ r.Precedes (s.run later).statistics := by
  obtain ⟨moment, earlier, shown⟩ := shown_seen sound begun ended reads
  have after (counter : Counter) : s.statistics.Precedes (s.run (moment counter)).statistics :=
    sound.precedes_run fewer _
  have before (counter : Counter) :
      (s.run (moment counter)).statistics.Precedes (s.run later).statistics := by
    obtain ⟨rest, whole⟩ := earlier counter
    rw [← whole, run_append]
    exact (sound.run _).precedes_run fewer rest
  exact ⟨_, shown,
    .of_le (after .total).total (after .converted).converted (after .failed).failed,
    .of_le (before .total).total (before .converted).converted (before .failed).failed⟩

/-- A call that is begun when every input is recorded shows all of them. -/
theorem shown_settled (settled : s.Settled) (reads : (calls.get i).records = false) :
    ((s.run later).underway i).Shows s.statistics (calls.get i) := by
  obtain ⟨moment, -, shown⟩ := shown_seen sound begun ended reads
  simp only [sound.settled_run settled] at shown
  exact shown

end Shown

/-- No update is lost. A run is cut at any moment; the counters then and at its end are compared.

* Counts never go back and what is pending never grows.
* No more inputs are counted than there are calls that record one, so no count wraps.
* Snapshots and requests change no counter.
* Each turn brings a call an access further, so every call can be completed.
* What a snapshot or an answer shows lies between the progress at its begin and that at its end.
* When every input is recorded, all of them are counted, as if no call had disturbed another, and
  that is what snapshots and answers show from then on. -/
theorem updates_kept (total : UInt64) (calls : List Call)
    (fewer : calls.countP Call.records < 2 ^ 63) (before later : List (Fin calls.length)) :
    let s := (start total calls).run before
    let s' := s.run later
    s.statistics.Precedes s'.statistics ∧
      s.statistics.converted + s.statistics.failed ≤ calls.countP Call.records ∧
      (∀ i, (calls.get i).records = false → (s.step i).counters = s.counters) ∧
      (∀ i, (s.underway i).left = (calls.get i).accesses.drop (before.count i)) ∧
      (∀ i, (calls.get i).records = false →
        (s.underway i).performed = [] → (s'.underway i).left = [] →
        ∃ r, (s'.underway i).Shows r (calls.get i) ∧
          s.statistics.Precedes r ∧ r.Precedes s'.statistics) ∧
      (s.Settled →
        s.statistics = calls.foldl Call.record { total := total.toNat } ∧
        s.statistics.converted = calls.countP Call.isConverted ∧
        s.statistics.failed = calls.countP Call.isFailed ∧
        s.statistics.bytesWritten.toNat = (calls.map Call.bytes).sum % 2 ^ 64 ∧
        s.statistics.pending =
          total.toNat - (calls.countP Call.isConverted + calls.countP Call.isFailed) ∧
        ∀ i, (calls.get i).records = false →
          (s.underway i).performed = [] → (s'.underway i).left = [] →
          (s'.underway i).Shows s.statistics (calls.get i)) := by
  intro s s'
  have sound : s.Sound total := (sound_start total calls).run before
  have now := sound.statistics_eq fewer
  refine ⟨sound.precedes_run fewer later, ?_, fun i => sound.counters_step,
    fun i => left_run _ before i,
    fun i reads begun ended => shown_between sound begun ended fewer reads, fun settled => ?_⟩
  · rw [now]
    exact sound.recorded_le_countP
  · simp only [sound.recorded_eq_due settled, due_converted, due_failed, due_bytesWritten] at now
    refine ⟨sound.statistics_settled fewer settled, by rw [now], by rw [now], ?_, ?_,
      fun i reads begun ended => shown_settled sound begun ended settled reads⟩
    · rw [now, UInt64.toNat_ofNat']
    · rw [now]
      rfl

/-- More inputs are recorded than there are, their bytes wrap, and a snapshot is taken while the
first of them is recorded by half. -/
theorem updates_kept_wrapped :
    let calls := [.converted (2 ^ 64 - 1), .snapshot, .failed, .converted 2,
      .request "GET" "/api/stats"]
    let before : List (Fin 5) := [1, 0, 1, 2, 1, 1, 3, 0, 3]
    let later : List (Fin 5) := [4, 4, 4, 4]
    let s := (start 1 calls).run before
    let s' := s.run later
    (s.underway (1 : Fin 5)).reading? = some ⟨1, 1, 1, 0⟩ ∧
      s.statistics = ⟨1, 2, 1, 1⟩ ∧ s.statistics.pending = 0 ∧
      (s'.underway (4 : Fin 5)).response? "GET" "/api/stats" =
        some (Diagnostics.respond ⟨1, 2, 1, 1⟩ "GET" "/api/stats") := by
  intro calls before later s s'
  have settled : s.Settled := by decide
  obtain ⟨-, -, -, -, -, kept⟩ := updates_kept 1 calls (by decide) before later
  obtain ⟨recorded, -, -, -, pending, shown⟩ := kept settled
  have counted : s.statistics = ⟨1, 2, 1, 1⟩ := recorded.trans (by decide)
  have answered := shown (4 : Fin 5) rfl (by decide) (by decide)
  rw [show s.statistics = _ from counted] at answered
  exact ⟨by decide, counted, pending.trans (by decide), answered⟩

end Shared
end Statistics
end GraphScribe
