import GraphScribe.Decode.Error
import GraphScribe.Graph
import GraphScribe.Text.Blank

/-!
# Fields

The texts of an element's fields and what they mean. White space around a number does not count. A
cost may be left out and is then zero; everything else is required. Fields are checked in a fixed
order, so the first one at fault decides the error.
-/

namespace GraphScribe

/-- The integer in a field. -/
def readIntegerField (element : ElementKind) (field : FieldName) (value : List Char) :
    Except DecodeError Int64 :=
  (Integer.readInt64 (Text.trim value)).mapError (.invalidInteger element field value)

/-- The integer in a field that must be there. -/
def readRequired (element : ElementKind) (field : FieldName) (value : Option (List Char)) :
    Except DecodeError Int64 :=
  match value with
  | some value => readIntegerField element field value
  | none => .error (.missingField element field)

/-- The cost in a field that may be left out. -/
def readCost (element : ElementKind) (value : Option (List Char)) : Except DecodeError Binary64 :=
  match value with
  | some value =>
    (Binary64.read (Text.trim value)).mapError (.invalidNumber element .cost value)
  | none => .ok (.zero false)

/-- The texts of a node's fields. -/
structure NodeFields where
  id : Option (List Char)
  cost : Option (List Char)
deriving DecidableEq, Repr

/-- The node of some texts: its name is checked first. -/
def NodeFields.toNode (f : NodeFields) : Except DecodeError Node := do
  let id ← readRequired .node .id f.id
  let cost ← readCost .node f.cost
  return { id, cost }

/-- The texts of an edge's fields. -/
structure EdgeFields where
  directed : Option (List Char)
  source : Option (List Char)
  target : Option (List Char)
  cost : Option (List Char)
deriving DecidableEq, Repr

/-- The edge is directed only if it says exactly so. -/
def EdgeFields.isDirected (f : EdgeFields) : Bool :=
  f.directed == some "yes".toList

/-- The edge of some texts: its source is checked first, then its target. -/
def EdgeFields.toEdge (f : EdgeFields) : Except DecodeError Edge := do
  let source ← readRequired .edge .source f.source
  let target ← readRequired .edge .target f.target
  let cost ← readCost .edge f.cost
  return { source, target, cost, directed := f.isDirected }

end GraphScribe
