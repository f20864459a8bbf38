import GraphScribe.Buffer

/-!
# Buffer pools

A pool lends out buffers and takes them back, the last one returned first. It keeps only so many
idle buffers, and none that has grown too large. Buffers come out empty.
-/

namespace GraphScribe
namespace BufferPool

/-- The limits of a pool. -/
structure Limits where
  /-- The capacity of a new buffer. -/
  initialCapacity : Nat := 8 * 1024
  /-- The largest number of idle buffers. -/
  maxIdle : Nat := 64
  /-- A buffer of larger capacity is not kept. -/
  maxRetained : Nat := 4 * 1024 * 1024
deriving DecidableEq, Repr

/-- The counters of a pool. -/
structure Counters where
  idle : Nat
  allocated : Nat
  acquired : Nat
deriving DecidableEq, Repr

end BufferPool

/-- Idle buffers, the last one returned first, and how many were ever made and lent out. -/
structure BufferPool where
  limits : BufferPool.Limits := {}
  idle : List Buffer := []
  allocated : Nat := 0
  acquired : Nat := 0
deriving DecidableEq, Repr

namespace BufferPool

/-- Lends out the buffer that was returned last, or a new one. -/
def acquire (pool : BufferPool) : Buffer × BufferPool :=
  match pool.idle with
  | buffer :: idle => (buffer.clear, { pool with idle, acquired := pool.acquired + 1 })
  | [] =>
    (.withCapacity pool.limits.initialCapacity,
      { pool with allocated := pool.allocated + 1, acquired := pool.acquired + 1 })

theorem acquire_contents (pool : BufferPool) : pool.acquire.1.contents = #[] := by
  unfold acquire
  split <;> rfl

/-- Takes a buffer back. It is dropped if it grew too large or enough buffers are idle. -/
def release (pool : BufferPool) (buffer : Buffer) : BufferPool :=
  if pool.limits.maxRetained < buffer.capacity then pool
  else if pool.idle.length < pool.limits.maxIdle then
    { pool with idle := buffer.clear :: pool.idle }
  else pool

/-- The counters of a pool. -/
def counters (pool : BufferPool) : Counters :=
  ⟨pool.idle.length, pool.allocated, pool.acquired⟩

end BufferPool
end GraphScribe
