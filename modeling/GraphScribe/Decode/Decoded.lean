import GraphScribe.Decode.Error
import GraphScribe.Graph

/-!
# Decoded documents

What a document gives: the elements of a graph in document order, up to its end or to the first
fault. Only a document without fault has a graph.
-/

namespace GraphScribe

/-- The elements before the first fault, and the fault, if there is one. -/
structure Decoded where
  elements : List GraphElement
  fault : Option DecodeError := none
deriving DecidableEq

namespace Decoded

/-- The graph of a document without fault. -/
def graph (d : Decoded) : Except DecodeError Graph :=
  match d.fault with
  | none => .ok (.ofElements d.elements)
  | some e => .error e

end Decoded
end GraphScribe
