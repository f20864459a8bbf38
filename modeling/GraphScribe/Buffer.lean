import GraphScribe.Bytes

/-!
# Buffers

A byte buffer has contents and a capacity. The capacity never shrinks; an addition that does not fit
makes it twice as large, or as large as needed, and at least eight.
-/

namespace GraphScribe

/-- Bytes with the room that was set aside for them. -/
structure Buffer where
  contents : Array UInt8
  capacity : Nat
deriving DecidableEq, Repr

namespace Buffer

/-- An empty buffer. -/
def withCapacity (capacity : Nat) : Buffer := ⟨#[], capacity⟩

/-- The number of bytes held. -/
def length (b : Buffer) : Nat := b.contents.size

/-- The capacity after making room for `needed` bytes in all. -/
def grown (capacity needed : Nat) : Nat :=
  if needed ≤ capacity then capacity else max (max (2 * capacity) needed) 8

/-- Adds bytes at the end. -/
def append (b : Buffer) (bytes : Bytes) : Buffer :=
  let contents := b.contents ++ bytes
  ⟨contents, grown b.capacity contents.size⟩

/-- Removes the contents and keeps the room. -/
def clear (b : Buffer) : Buffer := { b with contents := #[] }

end Buffer
end GraphScribe
