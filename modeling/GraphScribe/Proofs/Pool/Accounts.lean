import GraphScribe.BufferPool
import Mathlib.Data.List.Basic
import Mathlib.Data.List.Induction
import Mathlib.Data.List.Infix
import Mathlib.Order.Bounds.Basic

/-!
# The accounts of a pool

Any number of buffers may be lent out at a time, and their holders fill them and give them back in
any order. Whatever they do, every buffer that the pool ever made is idle, lent out or freed, so a
pool that never had to free one has made as many as were lent out at the same time.

* `Loans.use_moves`: what one use of a pool can do.
* `Loans.Accounted.move`, `Loans.after_accounted`: what one use preserves, and what all of them do.
* `Loans.isGreatest_after`: how many buffers are made if none is freed.
* `BufferPool.loans_balance`: the accounts of a pool after any uses.
-/

namespace GraphScribe.BufferPool

/-- What is done with the buffers of a pool. A holder is named by the place of its buffer among those
that are lent out; where there is none, nothing happens. -/
inductive Use where
  | acquire
  /-- A holder changes its buffer in any way, such as by adding bytes. -/
  | write (holder : Nat) (change : Buffer → Buffer)
  /-- A holder gives its buffer back. -/
  | release (holder : Nat)

/-- The use asks for a buffer. -/
def Use.isAcquire : Use → Bool
  | acquire => true
  | _ => false

/-- A pool with the buffers that are lent out, the last one lent at the end, and the number of those
that were freed when they came back. -/
structure Loans where
  pool : BufferPool
  held : List Buffer := []
  freed : Nat := 0

namespace Loans

/-- One use of a pool. A buffer that comes back was freed if no more buffers are idle than before. -/
def use (s : Loans) : Use → Loans
  | .acquire => { s with pool := s.pool.acquire.2, held := s.held ++ [s.pool.acquire.1] }
  | .write holder change => { s with held := s.held.modify holder change }
  | .release holder =>
    match s.held[holder]? with
    | none => s
    | some buffer =>
      { pool := s.pool.release buffer
        held := s.held.eraseIdx holder
        freed :=
          if (s.pool.release buffer).idle.length = s.pool.idle.length then s.freed + 1
          else s.freed }

/-- A new pool after some uses. -/
def after (limits : Limits) (uses : List Use) : Loans :=
  uses.foldl use { pool := { limits } }

/-- The numbers of buffers that were lent out at a time. -/
def heldCounts (limits : Limits) (uses : List Use) : Set Nat :=
  {count | ∃ before, before <+: uses ∧ (after limits before).held.length = count}

theorem after_concat (limits : Limits) (uses : List Use) (u : Use) :
    after limits (uses ++ [u]) = (after limits uses).use u :=
  List.foldl_concat ..

/-! ## One use -/

variable {s s' : Loans} {u : Use}

/-- The ways in which a use may go. -/
inductive Moves (s : Loans) : Use → Loans → Prop
  | reused {buffer : Buffer} {idle : List Buffer} (found : s.pool.idle = buffer :: idle) :
    Moves s .acquire
      ⟨{ s.pool with idle, acquired := s.pool.acquired + 1 }, s.held ++ [buffer.clear], s.freed⟩
  | made (empty : s.pool.idle = []) :
    Moves s .acquire
      ⟨{ s.pool with allocated := s.pool.allocated + 1, acquired := s.pool.acquired + 1 },
        s.held ++ [.withCapacity s.pool.limits.initialCapacity], s.freed⟩
  | written (holder : Nat) (change : Buffer → Buffer) :
    Moves s (.write holder change) ⟨s.pool, s.held.modify holder change, s.freed⟩
  | absent {holder : Nat} (beyond : s.held.length ≤ holder) : Moves s (.release holder) s
  | kept {holder : Nat} {buffer : Buffer} (within : holder < s.held.length)
    (lent : buffer ∈ s.held) (room : s.pool.idle.length < s.pool.limits.maxIdle)
    (small : buffer.capacity ≤ s.pool.limits.maxRetained) :
    Moves s (.release holder)
      ⟨{ s.pool with idle := buffer.clear :: s.pool.idle }, s.held.eraseIdx holder, s.freed⟩
  | dropped {holder : Nat} {buffer : Buffer} (within : holder < s.held.length)
    (lent : buffer ∈ s.held)
    (cause : s.pool.limits.maxRetained < buffer.capacity ∨
      s.pool.limits.maxIdle ≤ s.pool.idle.length) :
    Moves s (.release holder) ⟨s.pool, s.held.eraseIdx holder, s.freed + 1⟩

/-- A use goes in one of these ways. -/
theorem use_moves (s : Loans) (u : Use) : Moves s u (s.use u) := by
  cases u with
  | acquire =>
    rw [use, BufferPool.acquire]
    split
    · next buffer idle found => exact .reused found
    · next empty => exact .made empty
  | write holder change => exact .written holder change
  | release holder =>
    rw [use]
    split
    · next beyond => exact .absent (List.getElem?_eq_none_iff.1 beyond)
    · next buffer found =>
      have within : holder < s.held.length := (List.getElem?_eq_some_iff.1 found).1
      have lent : buffer ∈ s.held := List.mem_of_getElem? found
      by_cases large : s.pool.limits.maxRetained < buffer.capacity
      · have same : s.pool.release buffer = s.pool := if_pos large
        rw [same, if_pos rfl]
        exact .dropped within lent (.inl large)
      · by_cases room : s.pool.idle.length < s.pool.limits.maxIdle
        · have pushed : s.pool.release buffer =
              { s.pool with idle := buffer.clear :: s.pool.idle } :=
            (if_neg large).trans (if_pos room)
          have more : ¬ (buffer.clear :: s.pool.idle).length = s.pool.idle.length :=
            Nat.succ_ne_self _
          rw [pushed, if_neg more]
          exact .kept within lent room (Nat.not_lt.1 large)
        · have same : s.pool.release buffer = s.pool := (if_neg large).trans (if_neg room)
          rw [same, if_pos rfl]
          exact .dropped within lent (.inr (Nat.not_lt.1 room))

/-- What is freed stays so. -/
theorem Moves.freed_le (moves : Moves s u s') : s.freed ≤ s'.freed := by
  cases moves with
  | dropped => exact Nat.le_succ _
  | _ => exact Nat.le_refl _

/-- A buffer is made for one who asks while none is idle. -/
theorem Moves.allocated (moves : Moves s u s') :
    s'.pool.allocated = s.pool.allocated ∨
      u = .acquire ∧ s.pool.idle = [] ∧ s'.pool.allocated = s.pool.allocated + 1 := by
  cases moves with
  | made empty => exact .inr ⟨rfl, empty, rfl⟩
  | _ => exact .inl rfl

/-! ## The books -/

/-- The books of a pool after so many requests: the idle buffers are few, empty and small, and every
buffer that was made is somewhere. -/
structure Accounted (limits : Limits) (requests : Nat) (s : Loans) : Prop where
  sameLimits : s.pool.limits = limits
  few : s.pool.idle.length ≤ limits.maxIdle
  idle : ∀ buffer ∈ s.pool.idle, buffer.contents = #[] ∧ buffer.capacity ≤ limits.maxRetained
  acquired : s.pool.acquired = requests
  allocated : s.pool.allocated = s.pool.idle.length + s.held.length + s.freed

theorem accounted_start (limits : Limits) : Accounted limits 0 (after limits []) :=
  ⟨rfl, Nat.zero_le _, fun _ held => absurd held List.not_mem_nil, rfl, rfl⟩

section
variable {limits : Limits} {requests : Nat}

theorem Accounted.move (books : Accounted limits requests s) (moves : Moves s u s') :
    Accounted limits (requests + if u.isAcquire then 1 else 0) s' := by
  obtain ⟨sameLimits, few, idle, acquired, allocated⟩ := books
  cases moves with
  | @reused buffer others found =>
    rw [found, List.length_cons] at few allocated
    rw [found] at idle
    refine ⟨sameLimits, ?_, ?_, ?_, ?_⟩
    · exact Nat.le_of_succ_le few
    · exact fun buffer held => idle buffer (List.mem_cons_of_mem _ held)
    · exact congrArg Nat.succ acquired
    · rw [List.length_append, List.length_singleton]
      dsimp only
      omega
  | made empty =>
    refine ⟨sameLimits, few, idle, congrArg Nat.succ acquired, ?_⟩
    rw [List.length_append, List.length_singleton]
    dsimp only
    omega
  | written holder change =>
    refine ⟨sameLimits, few, idle, acquired, ?_⟩
    rw [List.length_modify]
    exact allocated
  | absent => exact ⟨sameLimits, few, idle, acquired, allocated⟩
  | @kept holder buffer within lent room small =>
    refine ⟨sameLimits, ?_, ?_, acquired, ?_⟩
    · rw [← sameLimits]
      exact room
    · intro other held
      rcases List.mem_cons.1 held with rfl | held
      · exact ⟨rfl, sameLimits ▸ small⟩
      · exact idle other held
    · rw [List.length_eraseIdx_of_lt within, List.length_cons]
      dsimp only
      omega
  | @dropped holder buffer within lent cause =>
    refine ⟨sameLimits, few, idle, acquired, ?_⟩
    rw [List.length_eraseIdx_of_lt within]
    dsimp only
    omega

/-- As long as nothing is freed, a buffer is made just where more are lent out than ever before: a
pool has what it made, so it lends that first. -/
theorem Accounted.allocated_eq_max (books : Accounted limits requests s)
    (nothing : (s.use u).freed = 0) :
    (s.use u).pool.allocated = max (s.use u).held.length s.pool.allocated := by
  have after := (books.move (use_moves s u)).allocated
  rcases (use_moves s u).allocated with same | ⟨rfl, noneIdle, more⟩
  · omega
  · have before := books.allocated
    have earlier : s.freed = 0 := Nat.le_zero.1 (nothing ▸ (use_moves s .acquire).freed_le)
    have lent : (s.use .acquire).held.length = s.held.length + 1 := List.length_append
    rw [noneIdle, List.length_nil] at before
    omega

/-- Nothing is freed while there is room for all that was made and no holder has a large buffer. -/
theorem Accounted.freed_eq (books : Accounted limits requests s) (moves : Moves s u s')
    (room : s.pool.allocated ≤ limits.maxIdle)
    (small : ∀ buffer ∈ s.held, buffer.capacity ≤ limits.maxRetained) : s'.freed = s.freed := by
  have allocated := books.allocated
  cases moves with
  | @dropped holder buffer within lent cause =>
    have fitting := small buffer lent
    rw [books.sameLimits] at cause
    omega
  | _ => rfl

end

/-! ## All uses -/

theorem after_accounted (limits : Limits) (uses : List Use) :
    Accounted limits (uses.countP (·.isAcquire)) (after limits uses) := by
  induction uses using List.reverseRecOn with
  | nil => exact accounted_start limits
  | append_singleton uses u ih =>
    rw [after_concat, List.countP_append, List.countP_singleton]
    exact ih.move (use_moves _ u)

/-! ## The most buffers that are lent out -/

theorem heldCounts_concat (limits : Limits) (uses : List Use) (u : Use) :
    heldCounts limits (uses ++ [u]) =
      insert (after limits (uses ++ [u])).held.length (heldCounts limits uses) := by
  ext count
  constructor
  · rintro ⟨before, isPrefix, counted⟩
    rcases List.prefix_concat_iff.1 isPrefix with rfl | earlier
    · exact .inl counted.symm
    · exact .inr ⟨before, earlier, counted⟩
  · rintro (counted | ⟨before, earlier, counted⟩)
    · exact ⟨_, List.prefix_rfl, counted.symm⟩
    · exact ⟨before, List.prefix_concat_iff.2 (.inr earlier), counted⟩

/-- A pool that freed nothing has made as many buffers as were lent out at a time. -/
theorem isGreatest_after {limits : Limits} {uses : List Use}
    (nothing : (after limits uses).freed = 0) :
    IsGreatest (heldCounts limits uses) (after limits uses).pool.allocated := by
  induction uses using List.reverseRecOn with
  | nil =>
    refine ⟨⟨[], List.prefix_rfl, rfl⟩, ?_⟩
    rintro count ⟨before, isPrefix, rfl⟩
    rw [List.prefix_nil.1 isPrefix]
    exact Nat.le_refl 0
  | append_singleton uses u ih =>
    have books := after_accounted limits uses
    rw [heldCounts_concat, after_concat] at *
    have before : (after limits uses).freed = 0 :=
      Nat.le_zero.1 (nothing ▸ (use_moves _ u).freed_le)
    rw [books.allocated_eq_max nothing]
    exact (ih before).insert _

/-- Nothing is freed where as many buffers may be idle as are lent out at a time, and none of those
grew too large. -/
theorem freed_after {limits : Limits} {uses : List Use}
    (fits : ∀ before, before <+: uses → (after limits before).held.length ≤ limits.maxIdle ∧
      ∀ buffer ∈ (after limits before).held, buffer.capacity ≤ limits.maxRetained) :
    (after limits uses).freed = 0 := by
  induction uses using List.reverseRecOn with
  | nil => rfl
  | append_singleton uses u ih =>
    have earlier : (after limits uses).freed = 0 :=
      ih fun before isPrefix => fits before (List.prefix_concat_iff.2 (.inr isPrefix))
    have room : (after limits uses).pool.allocated ≤ limits.maxIdle := by
      -- What the pool made was lent out at some time, all of it at once.
      obtain ⟨⟨before, isPrefix, counted⟩, -⟩ := isGreatest_after earlier
      exact counted ▸ (fits before (List.prefix_concat_iff.2 (.inr isPrefix))).1
    have small := (fits uses (List.prefix_append uses [u])).2
    rw [after_concat, (after_accounted limits uses).freed_eq (use_moves _ u) room small]
    exact earlier

end Loans

/-- Whatever is done with the buffers of a pool, its accounts are right. No buffer is lent out with
something in it. The idle buffers are within the limits and empty. Every buffer that was made is idle,
lent out or freed, and one is made only where none is idle. If nothing was freed, as many were made
as were lent out at a time; and nothing is freed if so many may be idle and none grew too large. -/
theorem loans_balance (limits : Limits) (uses : List Use) :
    let s := Loans.after limits uses
    (∃ buffer, (s.use .acquire).held = s.held ++ [buffer] ∧ buffer.contents = #[]) ∧
    s.pool.counters.idle ≤ limits.maxIdle ∧
    (∀ buffer ∈ s.pool.idle, buffer.contents = #[] ∧ buffer.capacity ≤ limits.maxRetained) ∧
    s.pool.counters.acquired = uses.countP (·.isAcquire) ∧
    s.pool.counters.allocated = s.pool.counters.idle + s.held.length + s.freed ∧
    (∀ u, (s.use u).pool.allocated = s.pool.allocated ∨
      u = .acquire ∧ s.pool.idle = [] ∧ (s.use u).pool.allocated = s.pool.allocated + 1) ∧
    (s.freed = 0 → IsGreatest (Loans.heldCounts limits uses) s.pool.counters.allocated) ∧
    ((∀ before, before <+: uses → (Loans.after limits before).held.length ≤ limits.maxIdle ∧
      ∀ buffer ∈ (Loans.after limits before).held, buffer.capacity ≤ limits.maxRetained) →
        s.freed = 0) := by
  intro s
  have books : Loans.Accounted limits _ s := Loans.after_accounted limits uses
  exact ⟨⟨_, rfl, s.pool.acquire_contents⟩, books.few, books.idle, books.acquired, books.allocated,
    fun u => (s.use_moves u).allocated, Loans.isGreatest_after, Loans.freed_after⟩

/-- Two holders at a time, one of which makes its buffer larger, and a third that gets the buffer of
the first. -/
theorem loans_balance_twoHolders :
    let limits : Limits := { initialCapacity := 4, maxIdle := 2, maxRetained := 16 }
    let uses : List Use :=
      [.acquire, .acquire, .write 0 (·.append [1, 2, 3, 4, 5]), .release 0, .acquire, .release 0]
    let s := Loans.after limits uses
    (∀ before, before <+: uses → (Loans.after limits before).held.length ≤ 2 ∧
      ∀ buffer ∈ (Loans.after limits before).held, buffer.capacity ≤ 16) ∧
    s.freed = 0 ∧ s.pool.counters = ⟨1, 2, 3⟩ ∧ IsGreatest (Loans.heldCounts limits uses) 2 := by
  intro limits uses s
  have fits : ∀ before, before <+: uses → (Loans.after limits before).held.length ≤ 2 ∧
      ∀ buffer ∈ (Loans.after limits before).held, buffer.capacity ≤ 16 := by
    intro before isPrefix
    have within : ∀ before ∈ uses.inits, (Loans.after limits before).held.length ≤ 2 ∧
        ∀ buffer ∈ (Loans.after limits before).held, buffer.capacity ≤ 16 := by decide
    exact within before ((List.mem_inits before uses).2 isPrefix)
  obtain ⟨-, -, -, -, -, -, peak, freed⟩ := loans_balance limits uses
  exact ⟨fits, freed fits, by decide, peak (freed fits)⟩

end GraphScribe.BufferPool
