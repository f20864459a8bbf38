import GraphScribe.Buffer
import GraphScribe.Decode.Streaming
import GraphScribe.Markup.Event
import GraphScribe.Markup.EventAttribute

/-!
# Walker

A walker follows the events of a document, one at a time, and knows how many elements are open. It
collects the fields of the node or edge element that it is in and notes the element when it closes.
A text that cannot be read is kept as an error until then, because a later child of the same name
may replace it; only a faulty attribute list is an error at once.
-/

namespace GraphScribe

open Markup

/-- A text, or why it cannot be read. -/
abbrev Deferred := Except DecodeError (List Char)

/-- The fields found so far of the element that is open. -/
inductive Pending where
  | node (id cost : Option Deferred)
  | edge (directed source target cost : Option Deferred)

namespace Pending

/-- The element without its fields. -/
def ofKind : ElementKind → Pending
  | .node => .node none none
  | .edge => .edge none none none none

/-- The attribute that matters. -/
def attributeName : Pending → Bytes
  | .node _ _ => Bytes.ofAscii "id"
  | .edge _ _ _ _ => Bytes.ofAscii "directed"

/-- Notes the value of the attribute that matters. -/
def setAttribute (value : Deferred) : Pending → Pending
  | .node _ cost => .node (some value) cost
  | .edge _ source target cost => .edge (some value) source target cost

/-- The field that a child of the element stands for. -/
def childField? (child : Bytes) : Pending → Option FieldName
  | .node _ _ => if child = Bytes.ofAscii "cost" then some .cost else none
  | .edge _ _ _ _ =>
    if child = Bytes.ofAscii "cost" then some .cost
    else if child = Bytes.ofAscii "source" then some .source
    else if child = Bytes.ofAscii "target" then some .target
    else none

/-- Notes the text of a child, in place of an earlier one. -/
def setChild (field : FieldName) (value : Deferred) : Pending → Pending
  | .node id cost =>
    match field with
    | .cost => .node id (some value)
    | _ => .node id cost
  | .edge directed source target cost =>
    match field with
    | .source => .edge directed (some value) target cost
    | .target => .edge directed source (some value) cost
    | .cost => .edge directed source target (some value)
    | .id => .edge directed source target cost

/-- A field's text, if it is there and can be read. -/
def resolve : Option Deferred → Except DecodeError (Option (List Char))
  | none => .ok none
  | some value => value.map some

/-- What the element stands for. The first text that cannot be read decides the error; only then are
the fields checked. -/
def meaning (p : Pending) : Except DecodeError GraphElement :=
  match p with
  | .node id cost => do
    let fields : NodeFields := { id := ← resolve id, cost := ← resolve cost }
    return .node (← fields.toNode)
  | .edge directed source target cost => do
    let fields : EdgeFields :=
      { directed := ← resolve directed, source := ← resolve source, target := ← resolve target,
        cost := ← resolve cost }
    return .edge (← fields.toEdge)

end Pending

/-- The number of open elements, whether any was seen, the complete nodes and edges (the last one
first), the node or edge that is open, and the field of it that is open, with the text read so
far. -/
structure Walker where
  depth : Nat := 0
  sawRoot : Bool := false
  elements : List GraphElement := []
  pending : Option Pending := none
  field : Option (FieldName × Deferred) := none

namespace Walker

/-- The text of some bytes, references replaced, as events report its faults. -/
def unescapeAt (position : Nat) (raw : Bytes) : Deferred :=
  match Utf8.decode raw with
  | .error fault => .error (.malformed position (.eventEncoding fault))
  | .ok text =>
    (Reference.expand text).mapError fun fault => .malformed position (.text (.reference fault))

/-- The text of a verbatim section. -/
def readVerbatimAt (position : Nat) (raw : Bytes) : Deferred :=
  (Utf8.decode raw).mapError fun fault => .malformed position (.text (.encoding fault))

/-- The kind of a node or edge element. -/
def kindOf? (name : Bytes) : Option ElementKind :=
  if name = ElementKind.node.tag then some .node
  else if name = ElementKind.edge.tag then some .edge
  else none

/-- The element that a start tag opens, with its attribute. -/
def openElement (kind : ElementKind) (tag : Tag) (position : Nat) : Except DecodeError Pending :=
  match EventAttribute.readAll tag.content tag.nameLength with
  | .error fault => .error (.malformed position (.eventAttribute fault))
  | .ok attributes =>
    let pending := Pending.ofKind kind
    match attributes.find? (·.key == pending.attributeName) with
    | none => .ok pending
    | some a => .ok (pending.setAttribute (unescapeAt position a.value))

/-- An element opens. -/
def start (w : Walker) (tag : Tag) (position : Nat) : Except DecodeError Walker :=
  match w.depth with
  | 0 => .ok { w with depth := 1, sawRoot := true }
  | 1 =>
    match kindOf? tag.name with
    | none => .ok { w with depth := 2 }
    | some kind =>
      (openElement kind tag position).map fun pending =>
        { w with depth := 2, pending := some pending }
  | 2 =>
    match w.pending with
    | none => .ok { w with depth := 3 }
    | some pending =>
      .ok { w with depth := 3, field := (pending.childField? tag.name).map (·, .ok []) }
  | depth => .ok { w with depth := depth + 1 }

/-- The innermost element closes. -/
def finish (w : Walker) : Except DecodeError Walker :=
  let w := { w with depth := w.depth - 1 }
  match w.depth with
  | 2 =>
    match w.pending, w.field with
    | some pending, some (field, value) =>
      .ok { w with pending := some (pending.setChild field value), field := none }
    | _, _ => .ok w
  | 1 =>
    match w.pending with
    | none => .ok w
    | some pending =>
      pending.meaning.map fun element =>
        { w with elements := element :: w.elements, pending := none }
  | _ => .ok w

/-- Adds character data to the open field, if it lies directly in it. The first fault stays. -/
def collect (w : Walker) (text : Deferred) : Walker :=
  match w.field with
  | some (field, .ok sofar) =>
    if w.depth = 3 then { w with field := some (field, text.map (sofar ++ ·)) } else w
  | _ => w

/-- Follows one event, which begins at `position`. -/
def step (w : Walker) (position : Nat) (e : Event) : Except DecodeError Walker :=
  match e with
  | .start tag => w.start tag position
  | .empty tag => (w.start tag position).bind finish
  | .finish _ => w.finish
  | .text raw => .ok (w.collect (unescapeAt position raw))
  | .verbatim raw => .ok (w.collect (readVerbatimAt position raw))
  | .other => .ok w

/-- What was read up to the error that stops the walk. -/
def stopped (w : Walker) (e : DecodeError) : Decoded :=
  ⟨w.elements.reverse, some e⟩

/-- What was read at the end of a document. -/
def result (w : Walker) : Decoded :=
  if 0 < w.depth then w.stopped (.truncated w.depth)
  else if w.sawRoot then ⟨w.elements.reverse, none⟩
  else w.stopped .noRoot

/-- The error of an event that cannot be read at `position`. -/
def stopError (w : Walker) (position : Nat) : EventStop → DecodeError
  | .unreadable failure => .unreadable failure
  | .unclosed => .truncated w.depth
  | .malformed fault => .malformed position fault

/-- What is in the buffer when no event can be read: the rest of the document if all of it was
looked at, and nothing otherwise. -/
def leftover (rest : Bytes) : EventStop → Bytes
  | .malformed _ => []
  | _ => rest

/-- Follows the events that are left. The buffer holds one event at a time, and grows once for each,
not for every chunk of it that arrives. -/
def run (w : Walker) (r : EventReader) (buffer : Buffer) : Decoded × Buffer :=
  match h : r.next with
  | .error stop =>
    (w.stopped (w.stopError r.position stop), buffer.append (leftover r.rest stop))
  | .ok none => (w.result, buffer)
  | .ok (some (e, r')) =>
    have := EventReader.next_length h
    let buffer := buffer.append (r.rest.take (r'.position - r.position))
    match w.step r.position e with
    | .error e => (w.stopped e, buffer)
    | .ok w => run w r' buffer.clear
termination_by r.rest.length

/-- Reads a document as it arrives; the buffer is the one that its events went through. -/
def read (source : Source) (buffer : Buffer) : Decoded × Buffer :=
  run {} (.ofSource source) buffer

end Walker
end GraphScribe
