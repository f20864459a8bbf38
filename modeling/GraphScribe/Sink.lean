import GraphScribe.Bytes
import GraphScribe.SystemError

/-!
# Sinks

A receiver takes bytes, and in the end makes sure that they have arrived. A sink is the receiver that
keeps what it took until it is full.
-/

namespace GraphScribe

/-- What takes bytes. It takes a byte string as a whole or fails, and may have taken a first part of
it by then. A failure comes with what is left of the receiver. -/
class Receiver (σ : Type) where
  /-- Offers bytes. -/
  write : σ → Bytes → Except (SystemError × σ) σ
  /-- Makes sure that all bytes have arrived. -/
  flush : σ → Except (SystemError × σ) σ

/-- Offers byte strings in order, up to the first failure. -/
def Receiver.writeAll {σ : Type} [Receiver σ] (s : σ) (chunks : List Bytes) :
    Except (SystemError × σ) σ :=
  chunks.foldlM Receiver.write s

/-- What a sink holds, how many bytes it can hold, and whether making sure of them fails. -/
structure Sink where
  held : Array UInt8 := #[]
  limit : Option Nat := none
  flushFails : Bool := false
deriving DecidableEq, Repr

namespace Sink

/-- The sink has room for `count` bytes in all. -/
def hasRoom (s : Sink) (count : Nat) : Bool :=
  match s.limit with
  | none => true
  | some limit => count ≤ limit

/-- Offers bytes. A sink that has no room for all of them takes none. -/
def write (s : Sink) (bytes : Bytes) : Except (SystemError × Sink) Sink :=
  if s.hasRoom (s.held.size + bytes.length) then .ok { s with held := s.held ++ bytes }
  else .error (.storageFull, s)

/-- Makes sure that all bytes have arrived. -/
def flush (s : Sink) : Except (SystemError × Sink) Sink :=
  if s.flushFails then .error (.flushFailed, s) else .ok s

instance : Receiver Sink where
  write := write
  flush := flush

end Sink
end GraphScribe
