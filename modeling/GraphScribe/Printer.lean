import GraphScribe.BufferPool
import GraphScribe.Template

/-!
# Printers

A printer writes graphs to receivers by one template. Output is staged: pieces collect in a buffer of
the printer's pool, and whenever the buffer holds enough of them it is handed to the receiver. The
buffer goes back to the pool however printing ends.
-/

namespace GraphScribe

variable {σ : Type} [Receiver σ]

/-- A buffer in front of a receiver, and the number of bytes that were written to the two. -/
structure Staged (σ : Type) where
  buffer : Buffer
  sink : σ
  written : Nat := 0

namespace Staged

/-- The buffer is handed over when it holds this many bytes. -/
def threshold : Nat := 8 * 1024

/-- Hands the contents of the buffer to the receiver. Where that fails, the buffer keeps them. -/
def drain (s : Staged σ) : Except (SystemError × Staged σ) (Staged σ) :=
  if s.buffer.contents.isEmpty then .ok s
  else match Receiver.write s.sink s.buffer.contents.toList with
    | .ok sink => .ok { s with buffer := s.buffer.clear, sink }
    | .error (e, sink) => .error (e, { s with sink })

/-- Adds one piece to the buffer. -/
def add (s : Staged σ) (piece : Bytes) : Staged σ :=
  { s with buffer := s.buffer.append piece, written := s.written + piece.length }

/-- Adds one piece, and hands the buffer over if it holds enough. -/
def write (s : Staged σ) (piece : Bytes) : Except (SystemError × Staged σ) (Staged σ) :=
  if threshold ≤ (s.add piece).buffer.length then (s.add piece).drain else .ok (s.add piece)

/-- Hands over what is left and makes sure that it has arrived. -/
def flush (s : Staged σ) : Except (SystemError × Staged σ) (Staged σ) :=
  match s.drain with
  | .error e => .error e
  | .ok s =>
    match Receiver.flush s.sink with
    | .ok sink => .ok { s with sink }
    | .error (e, sink) => .error (e, { s with sink })

instance : Receiver (Staged σ) where
  write := write
  flush := flush

end Staged

/-- A template with the pool of its output buffers. -/
structure Printer where
  template : Template
  buffers : BufferPool := {}

/-- What printing leaves: the number of bytes written or the failure of the receiver, the receiver,
and the printer. -/
structure Printed (σ : Type) where
  outcome : Except SystemError Nat
  sink : σ
  printer : Printer

namespace Printer

/-- Writes a graph to a receiver. -/
def printTo (p : Printer) (sink : σ) (g : Graph) : Printed σ :=
  let (buffer, buffers) := p.buffers.acquire
  match p.template.writeTo { buffer, sink : Staged σ } g >>= Receiver.flush with
  | .ok s => ⟨.ok s.written, s.sink, { p with buffers := buffers.release s.buffer }⟩
  | .error (e, s) => ⟨.error e, s.sink, { p with buffers := buffers.release s.buffer }⟩

/-- Writes a graph to a sink. -/
def print (p : Printer) (sink : Sink) (g : Graph) : Printed Sink :=
  p.printTo sink g

end Printer
end GraphScribe
