/-!
# Conversion statistics

Counters of a run: how many inputs there are, how many were converted or failed, and how many bytes
were written. The byte count wraps at 64 bits.
-/

namespace GraphScribe

/-- The counters of a run. -/
structure Statistics where
  total : Nat
  converted : Nat := 0
  failed : Nat := 0
  bytesWritten : UInt64 := 0
deriving DecidableEq, Repr

namespace Statistics

/-- Counts an input that was converted into `bytes` bytes. -/
def recordConverted (s : Statistics) (bytes : Nat) : Statistics :=
  { s with converted := s.converted + 1, bytesWritten := s.bytesWritten + .ofNat bytes }

/-- Counts an input that failed. -/
def recordFailed (s : Statistics) : Statistics :=
  { s with failed := s.failed + 1 }

/-- The number of inputs that are neither converted nor failed. -/
def pending (s : Statistics) : Nat :=
  s.total - (s.converted + s.failed)

end Statistics
end GraphScribe
