import GraphScribe.BufferPool

/-!
# Pools that one buffer is enough for

A buffer at most doubles when it grows, so it stays small if what it holds stays small, however often
it is lent out again. A pool that lends one such buffer at a time never makes a second one and never
drops the first.

* `Buffer.IsSlim.append`: the capacity, by what is held at a time.
* `BufferPool.Settled.returned`: what one use of a buffer does to a pool.
-/

namespace GraphScribe

namespace Buffer

/-- The most bytes that a buffer holds at a time: fewer than what is handed to a receiver, and then a
mebibyte. -/
def most : Nat := 8 * 1024 + 1024 * 1024

/-- A buffer that never had to grow for more than `most` bytes. -/
def IsSlim (b : Buffer) : Prop :=
  b.capacity ≤ 2 * most

theorem IsSlim.clear {b : Buffer} (slim : b.IsSlim) : b.clear.IsSlim := slim

/-- Growing for `most` bytes at a time does not add up. -/
theorem IsSlim.append {b : Buffer} (slim : b.IsSlim) {bytes : Bytes}
    (few : b.length + bytes.length ≤ most) : (b.append bytes).IsSlim := by
  have room : b.capacity ≤ 2 * most := slim
  have size : (b.contents ++ bytes).size = b.length + bytes.length := by
    rw [← Array.length_toList, Array.toList_appendList, List.length_append]
    rfl
  change grown b.capacity (b.contents ++ bytes).size ≤ 2 * most
  rw [size, grown]
  split
  · exact room
  · -- It only grows when `most` bytes do not fit, and then at most doubles.
    simp only [most] at *
    omega

/-- An empty buffer has room for what it can hold at a time. -/
theorem IsSlim.append_empty {b : Buffer} (slim : b.IsSlim) (empty : b.contents = #[])
    {bytes : Bytes} (few : bytes.length ≤ most) : (b.append bytes).IsSlim := by
  refine slim.append ?_
  rw [length, empty]
  exact Nat.le_trans (Nat.le_of_eq (Nat.zero_add _)) few

end Buffer

namespace BufferPool

/-- A pool after `uses` uses, one at a time, of buffers that stayed slim: it made one buffer, which is
there, unless nobody asked for one. -/
structure Settled (pool : BufferPool) (uses : Nat) : Prop where
  limits : pool.limits = {}
  counters : pool.counters = ⟨min 1 uses, min 1 uses, uses⟩
  slim : ∀ buffer ∈ pool.idle, buffer.IsSlim

variable {pool : BufferPool} {uses : Nat}

theorem Settled.new : ({} : BufferPool).Settled 0 :=
  ⟨rfl, rfl, fun _ held => absurd held List.not_mem_nil⟩

/-- The pool has its buffer if any was made. -/
theorem Settled.idle_eq (settled : pool.Settled uses) :
    (uses = 0 ∧ pool.idle = []) ∨ ∃ buffer, 0 < uses ∧ pool.idle = [buffer] := by
  have length : pool.idle.length = min 1 uses := congrArg Counters.idle settled.counters
  rcases Nat.eq_zero_or_pos uses with none | some
  · exact .inl ⟨none, List.length_eq_zero_iff.1 (by omega)⟩
  · obtain ⟨buffer, only⟩ := List.length_eq_one_iff.1 (show pool.idle.length = 1 by omega)
    exact .inr ⟨buffer, some, only⟩

/-- The buffer that is lent out is slim. -/
theorem Settled.lent (settled : pool.Settled uses) : pool.acquire.1.IsSlim := by
  rcases settled.idle_eq with ⟨-, idle⟩ | ⟨buffer, -, idle⟩
  · simp only [acquire, idle, settled.limits]
    change 8 * 1024 ≤ 2 * Buffer.most
    decide
  · simp only [acquire, idle]
    exact (settled.slim buffer (idle ▸ List.mem_singleton_self buffer)).clear

/-- Lending leaves a pool without idle buffers. -/
theorem Settled.lends (settled : pool.Settled uses) :
    pool.acquire.2 = { pool with idle := [], allocated := 1, acquired := uses + 1 } := by
  have allocated : pool.allocated = min 1 uses := congrArg Counters.allocated settled.counters
  have acquired : pool.acquired = uses := congrArg Counters.acquired settled.counters
  rcases settled.idle_eq with ⟨none, idle⟩ | ⟨buffer, some, idle⟩
  · have made : pool.allocated + 1 = 1 := by omega
    simp only [acquire, idle, made, acquired]
  · have made : pool.allocated = 1 := by omega
    simp only [acquire, idle, ← made, acquired]

/-- One use of a buffer. The pool keeps the buffer that comes back, because it stayed slim. -/
theorem Settled.returned (settled : pool.Settled uses) {buffer : Buffer} (slim : buffer.IsSlim) :
    (pool.acquire.2.release buffer).Settled (uses + 1) := by
  have small : ¬ ({} : Limits).maxRetained < buffer.capacity := by
    have le : 2 * Buffer.most ≤ ({} : Limits).maxRetained := by decide
    exact Nat.not_lt.2 (Nat.le_trans slim le)
  have released : pool.acquire.2.release buffer =
      { pool with idle := [buffer.clear], allocated := 1, acquired := uses + 1 } := by
    rw [settled.lends, release, settled.limits, if_neg small]
    exact if_pos (show 0 < 64 by decide)
  have one : min 1 (uses + 1) = 1 := by omega
  rw [released]
  refine ⟨settled.limits, ?_, fun held isHeld => ?_⟩
  · rw [one]
    rfl
  · cases List.mem_singleton.1 isHeld
    exact slim.clear

/-- What the counters of a pool come to that was used at all. -/
theorem Settled.counters_of_pos (settled : pool.Settled uses) (used : 0 < uses) :
    pool.counters = ⟨1, 1, uses⟩ := by
  have one : min 1 uses = 1 := by omega
  rw [settled.counters, one]

end BufferPool
end GraphScribe
