import GraphScribe.Decode.Decoded
import GraphScribe.Decode.ElementReader
import GraphScribe.Decode.Fields

/-!
# Decoding by elements

A graph is read by taking the node and edge elements out of a document one after the other. The
first element at fault ends it; what follows is not looked at.
-/

namespace GraphScribe

namespace ElementKind

/-- The name of an element as it stands in a document. -/
def tag : ElementKind → Bytes
  | .node => Bytes.ofAscii "node"
  | .edge => Bytes.ofAscii "edge"

/-- The elements that are taken out of a document. -/
def tags : List Bytes := [node.tag, edge.tag]

end ElementKind

namespace Element

/-- The texts of a node's fields. The first text that cannot be read decides the error. -/
def nodeFields (e : Element) : Except DecodeError NodeFields := do
  let id ← e.attribute? (Bytes.ofAscii "id")
  let cost ← e.childText? (Bytes.ofAscii "cost")
  return { id, cost }

/-- The texts of an edge's fields. The first text that cannot be read decides the error. -/
def edgeFields (e : Element) : Except DecodeError EdgeFields := do
  let directed ← e.attribute? (Bytes.ofAscii "directed")
  let source ← e.childText? (Bytes.ofAscii "source")
  let target ← e.childText? (Bytes.ofAscii "target")
  let cost ← e.childText? (Bytes.ofAscii "cost")
  return { directed, source, target, cost }

/-- What an element stands for. -/
def meaning (e : Element) : Except DecodeError GraphElement :=
  if e.name = ElementKind.node.tag then return .node (← (← e.nodeFields).toNode)
  else return .edge (← (← e.edgeFields).toEdge)

end Element

namespace Streaming

/-- Reads the elements that are left in a document; `before` are those already read, the last one
first. -/
def readFrom (r : ElementReader) (before : List GraphElement) : Decoded :=
  match h : r.next ElementKind.tags with
  | (.error e, _) => ⟨before.reverse, some e⟩
  | (.ok none, r') => ⟨before.reverse, if r'.sawRoot then none else some .noRoot⟩
  | (.ok (some element), r') =>
    have := ElementReader.next_length h
    match element.meaning with
    | .error e => ⟨before.reverse, some e⟩
    | .ok meaning => readFrom r' (meaning :: before)
termination_by r.cursor.rest.length

/-- Reads a document. -/
def read (document : Bytes) : Decoded :=
  readFrom (.ofBytes document) []

/-- The graph of a document. -/
def decode (document : Bytes) : Except DecodeError Graph :=
  (read document).graph

end Streaming
end GraphScribe
