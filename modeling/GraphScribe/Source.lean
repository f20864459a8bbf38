import GraphScribe.Bytes
import GraphScribe.SystemError

/-!
# Sources

A document as it arrives: some bytes, and then its end or a failure.
-/

namespace GraphScribe

/-- The bytes that arrive, the failure that follows them, if one does, and the largest number of
bytes that arrive at once. -/
structure Source where
  bytes : Bytes
  failure : Option SystemError := none
  chunk : Nat := 8 * 1024
deriving DecidableEq, Repr

namespace Source

/-- A document that is there as a whole. -/
def ofBytes (document : Bytes) : Source :=
  { bytes := document, chunk := document.length }

/-- The bytes that arrive first. -/
def first (s : Source) : Bytes :=
  s.bytes.take s.chunk

end Source
end GraphScribe
