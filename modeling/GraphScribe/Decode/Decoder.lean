import GraphScribe.BufferPool
import GraphScribe.Decode.Kind
import GraphScribe.Decode.Walker

/-!
# Decoders

A decoder turns documents into graphs by one of the two ways, with a pool of buffers for documents
that arrive bit by bit. The buffer goes back to the pool however decoding ends.
-/

namespace GraphScribe

/-- A way to decode, and the pool of buffers for it. -/
structure Decoder where
  kind : DecoderKind
  buffers : BufferPool := {}
deriving DecidableEq, Repr

namespace Decoder

/-- Collects a whole source in a buffer and reads what it holds. The buffer grows once, by all that
the source gives, and not chunk by chunk as it arrives. It may end up with less room than it would
have then, never with less than it needs, and what it holds is the same. -/
def readCollected (source : Source) (buffer : Buffer) : Decoded × Buffer :=
  let buffer := buffer.append source.bytes
  match source.failure with
  | some failure => (⟨[], some (.unreadable failure)⟩, buffer)
  | none => (Streaming.read buffer.contents.toList, buffer)

/-- Reads a document as it arrives. -/
def read (d : Decoder) (source : Source) : Decoded × Decoder :=
  let (buffer, buffers) := d.buffers.acquire
  let (decoded, buffer) :=
    match d.kind with
    | .token => Walker.read source buffer
    | .streaming => readCollected source buffer
  (decoded, { d with buffers := buffers.release buffer })

/-- The graph of a document as it arrives. -/
def decode (d : Decoder) (source : Source) : Except DecodeError Graph × Decoder :=
  let (decoded, d) := d.read source
  (decoded.graph, d)

/-- The graph of a document that is there as a whole. Taking elements out of it needs no buffer. -/
def decodeBytes (d : Decoder) (document : Bytes) : Except DecodeError Graph × Decoder :=
  match d.kind with
  | .token => d.decode (.ofBytes document)
  | .streaming => (Streaming.decode document, d)

end Decoder
end GraphScribe
