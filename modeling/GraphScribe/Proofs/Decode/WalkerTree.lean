import GraphScribe.Decode.Walker
import GraphScribe.Proofs.Decode.Collector
import GraphScribe.Proofs.Markup.AttributeLists
import Mathlib.Control.Monad.Basic

/-!
# Following events

The walker has no stack of open elements, only a counter, and still reads every sequence of events
as the forest that it traverses. `Walker.Reachable.wellPlaced` ties what is in hand to the counter;
`Walker.follow_of_events` is the meaning of whole sequences.
-/

namespace GraphScribe

open Markup

namespace Walker

/-- Follows the events of a feed to its end or to the first error. -/
def follow (w : Walker) : Feed (Nat × Event) → Decoded
  | .finished => w.result
  | .unclosed => w.stopped (.truncated w.depth)
  | .broken e => w.stopped e
  | .item (position, event) rest =>
    match w.step position event with
    | .error e => w.stopped e
    | .ok w' => w'.follow rest

/-- The walker reads a document as it follows its feed of events, whatever the buffer. -/
theorem run_eq_follow (w : Walker) (r : EventReader) (buffer : Buffer) :
    (w.run r buffer).1 = w.follow r.feed := by
  fun_induction run w r buffer with
  | case1 w r buffer stop read =>
    rw [EventReader.feed]
    split
    · next stop' read' =>
      cases read.symm.trans read'
      cases stop <;> rfl
    · next read' => cases read.symm.trans read'
    · next read' => cases read.symm.trans read'
  | case2 w r buffer read =>
    rw [EventReader.feed]
    split
    · next read' => cases read.symm.trans read'
    · rfl
    · next read' => cases read.symm.trans read'
  | case3 w r buffer event r' read _ buffer' e failed =>
    rw [EventReader.feed]
    split
    · next read' => cases read.symm.trans read'
    · next read' => cases read.symm.trans read'
    · next read' =>
      cases read.symm.trans read'
      rw [follow, failed]
  | case4 w r buffer event r' read _ buffer' w' stepped ih =>
    rw [EventReader.feed]
    split
    · next read' => cases read.symm.trans read'
    · next read' => cases read.symm.trans read'
    · next read' =>
      cases read.symm.trans read'
      rw [follow, stepped]
      exact ih

/-! ## Reachable states -/

/-- The states that the handlers of the walker lead to, in any order of calls. -/
inductive Reachable : Walker → Prop where
  | initial : Reachable {}
  | start {w w' : Walker} {tag : Tag} {position : Nat} :
    Reachable w → w.start tag position = .ok w' → Reachable w'
  | finish {w w' : Walker} : Reachable w → w.finish = .ok w' → Reachable w'
  | collect {w : Walker} (text : Deferred) : Reachable w → Reachable (w.collect text)

theorem Reachable.step {w w' : Walker} {position : Nat} {e : Event} (reachable : Reachable w)
    (stepped : w.step position e = .ok w') : Reachable w' := by
  cases e with
  | start tag => exact .start reachable stepped
  | empty tag =>
    have both : (w.start tag position).bind Walker.finish = .ok w' := stepped
    cases opened : w.start tag position with
    | error e =>
      rw [opened] at both
      cases both
    | ok w₁ =>
      rw [opened] at both
      exact .finish (.start reachable opened) both
  | finish name => exact .finish reachable stepped
  | text raw =>
    cases stepped
    exact .collect _ reachable
  | verbatim raw =>
    cases stepped
    exact .collect _ reachable
  | other =>
    cases stepped
    exact reachable

/-- An element is in hand only inside it, and a field only inside it and its element. -/
structure WellPlaced (w : Walker) : Prop where
  pending : w.pending.isSome → 2 ≤ w.depth
  field : w.field.isSome → w.pending.isSome ∧ 3 ≤ w.depth

theorem WellPlaced.start {w w' : Walker} {tag : Tag} {position : Nat} (placed : WellPlaced w)
    (opened : w.start tag position = .ok w') : WellPlaced w' := by
  obtain ⟨depth, sawRoot, elements, pending, field⟩ := w
  obtain ⟨held, child⟩ := placed
  dsimp only at held child
  unfold Walker.start at opened
  dsimp only at opened
  split at opened
  · cases opened
    exact ⟨fun some => by have := held some; omega, fun some => by have := child some; omega⟩
  · split at opened
    · cases opened
      exact ⟨fun _ => Nat.le_refl 2, fun some => by have := child some; omega⟩
    · next kind _ =>
      cases read : openElement kind tag position with
      | error e =>
        rw [read] at opened
        cases opened
      | ok member =>
        rw [read] at opened
        cases opened
        exact ⟨fun _ => Nat.le_refl 2, fun some => by have := child some; omega⟩
  · split at opened
    · cases opened
      exact ⟨(nomatch ·), fun some => by have := child some; omega⟩
    · cases opened
      exact ⟨fun _ => Nat.le_succ 2, fun _ => ⟨rfl, Nat.le_refl 3⟩⟩
  · cases opened
    refine ⟨fun some => Nat.le_succ_of_le (held some), fun some => ?_⟩
    exact ⟨(child some).1, Nat.le_succ_of_le (child some).2⟩

theorem WellPlaced.finish {w w' : Walker} (placed : WellPlaced w)
    (closed : w.finish = .ok w') : WellPlaced w' := by
  obtain ⟨depth, sawRoot, elements, pending, field⟩ := w
  obtain ⟨held, child⟩ := placed
  dsimp only at held child
  unfold Walker.finish at closed
  dsimp only at closed
  split at closed
  · next two =>
    split at closed
    · cases closed
      exact ⟨fun _ => Nat.le_of_eq two.symm, (nomatch ·)⟩
    · next apart =>
      cases closed
      refine ⟨fun _ => Nat.le_of_eq two.symm, fun some => ?_⟩
      obtain ⟨field', rfl⟩ := Option.isSome_iff_exists.1 some
      obtain ⟨pending', rfl⟩ := Option.isSome_iff_exists.1 (child rfl).1
      exact (apart pending' field'.1 field'.2 rfl rfl).elim
  · next one =>
    split at closed
    · cases closed
      exact ⟨(nomatch ·), fun some => by have := child some; omega⟩
    · next member =>
      cases meant : member.meaning with
      | error e =>
        rw [meant] at closed
        cases closed
      | ok element =>
        rw [meant] at closed
        cases closed
        exact ⟨(nomatch ·), fun some => by have := child some; omega⟩
  · next notTwo notOne =>
    cases closed
    have passedTwo : depth - 1 ≠ 2 := notTwo
    have passedOne : depth - 1 ≠ 1 := notOne
    refine ⟨fun some => ?_, fun some => ⟨(child some).1, ?_⟩⟩
    · have deep : 2 ≤ depth := held some
      show 2 ≤ depth - 1
      omega
    · have deep : 3 ≤ depth := (child some).2
      show 3 ≤ depth - 1
      omega

theorem WellPlaced.collect {w : Walker} (placed : WellPlaced w) (text : Deferred) :
    WellPlaced (w.collect text) := by
  obtain ⟨held, child⟩ := placed
  unfold Walker.collect
  split
  · next field sofar inHand =>
    split
    · exact ⟨held, fun _ => child (by rw [inHand]; rfl)⟩
    · exact ⟨held, child⟩
  · exact ⟨held, child⟩

/-- Every reachable state is well placed. -/
theorem Reachable.wellPlaced {w : Walker} (reachable : Reachable w) : WellPlaced w := by
  induction reachable with
  | initial => exact ⟨(nomatch ·), (nomatch ·)⟩
  | start _ opened ih => exact ih.start opened
  | finish _ closed ih => exact ih.finish closed
  | collect text _ ih => exact ih.collect text

/-! ## The walker as a collector -/

/-- The text of one run of character data, as events report its faults. -/
def readPieceAt (position : Nat) : Piece → Deferred
  | .text raw => unescapeAt position raw
  | .verbatim raw => readVerbatimAt position raw

/-- A field with one more run of character data. The first fault stays. -/
def addPiece (child : FieldName × Deferred) (piece : Nat × Piece) : FieldName × Deferred :=
  match child with
  | (field, .ok sofar) => (field, (readPieceAt piece.1 piece.2).map (sofar ++ ·))
  | (field, .error e) => (field, .error e)

/-- What the walker collects. -/
def collector : Collector (Nat × Tag) (Nat × Piece) Pending (FieldName × Deferred) where
  begin? tag := (kindOf? tag.2.name).map fun kind => openElement kind tag.2 tag.1
  child? member tag := (member.childField? tag.2.name).map (·, .ok [])
  add := addPiece
  close member child := member.setChild child.1 child.2
  meaning := Pending.meaning

/-- A walker as a state of its collector. -/
def progress (w : Walker) : Progress Pending (FieldName × Deferred) :=
  ⟨w.depth, w.sawRoot, w.elements, w.pending, w.field⟩

theorem enter_progress (w : Walker) (tag : Tag) (position : Nat) :
    collector.enter w.progress (position, tag) = (w.start tag position).map progress := by
  obtain ⟨depth, sawRoot, elements, pending, field⟩ := w
  match depth with
  | 0 => rfl
  | 1 =>
    cases named : kindOf? tag.name with
    | none =>
      simp only [Collector.enter, progress, collector, Walker.start, named, Option.map_none]
      rfl
    | some kind =>
      simp only [Collector.enter, progress, collector, Walker.start, named, Option.map_some]
      cases openElement kind tag position <;> rfl
  | 2 => cases pending <;> rfl
  | depth + 3 => rfl

theorem leave_progress (w : Walker) : collector.leave w.progress = w.finish.map progress := by
  obtain ⟨depth, sawRoot, elements, pending, field⟩ := w
  match depth with
  | 0 => rfl
  | 1 => rfl
  | 2 =>
    cases pending with
    | none => rfl
    | some member =>
      show member.meaning.map _ = (member.meaning.map _).map progress
      cases member.meaning <;> rfl
  | 3 => cases pending <;> cases field <;> rfl
  | depth + 4 => rfl

theorem data_progress (w : Walker) (position : Nat) (piece : Piece) :
    collector.data w.progress (position, piece) =
      (w.collect (readPieceAt position piece)).progress := by
  obtain ⟨depth, sawRoot, elements, pending, field⟩ := w
  unfold Collector.data progress Walker.collect
  match field with
  | none => rfl
  | some (field, .ok sofar) =>
    by_cases three : depth = 3
    · simp only [if_pos three]
      rfl
    · simp only [if_neg three]
  | some (field, .error e) =>
    by_cases three : depth = 3
    · simp only [if_pos three]
      rfl
    · simp only [if_neg three]

theorem elements_of_start {w w' : Walker} {tag : Tag} {position : Nat}
    (opened : w.start tag position = .ok w') : w'.elements = w.elements := by
  unfold Walker.start at opened
  split at opened
  · cases opened
    rfl
  · split at opened
    · cases opened
      rfl
    · next kind _ =>
      cases read : openElement kind tag position with
      | error e =>
        rw [read] at opened
        cases opened
      | ok member =>
        rw [read] at opened
        cases opened
        rfl
  · split at opened <;> cases opened <;> rfl
  · cases opened
    rfl

theorem run_start (w : Walker) (tag : Tag) (position : Nat)
    (rest : Feed (Signal (Nat × Tag) (Nat × Piece))) :
    collector.run w.progress (.item (.enter (position, tag)) rest) =
      match w.start tag position with
      | .error e => w.stopped e
      | .ok w' => collector.run w'.progress rest := by
  rw [Collector.run, Collector.step, enter_progress]
  cases w.start tag position <;> rfl

theorem run_finish (w : Walker) (rest : Feed (Signal (Nat × Tag) (Nat × Piece))) :
    collector.run w.progress (.item .leave rest) =
      match w.finish with
      | .error e => w.stopped e
      | .ok w' => collector.run w'.progress rest := by
  rw [Collector.run, Collector.step, leave_progress]
  cases w.finish <;> rfl

theorem run_piece (w : Walker) (position : Nat) (piece : Piece)
    (rest : Feed (Signal (Nat × Tag) (Nat × Piece))) :
    collector.run w.progress (.item (.data (position, piece)) rest) =
      collector.run (w.collect (readPieceAt position piece)).progress rest := by
  rw [← data_progress]
  rfl

/-- The walker finds what its collector finds. -/
theorem follow_eq_run (feed : Feed (Nat × Event)) : ∀ w : Walker,
    w.follow feed = collector.run w.progress feed.eventSignals := by
  induction feed with
  | finished => exact fun _ => rfl
  | unclosed => exact fun _ => rfl
  | broken e => exact fun _ => rfl
  | item event rest ih =>
    intro w
    obtain ⟨position, event⟩ := event
    rw [follow]
    cases event with
    | start tag =>
      refine Eq.trans ?_ (run_start w tag position _).symm
      show (match w.start tag position with
        | .error e => w.stopped e
        | .ok w' => w'.follow rest) = _
      cases w.start tag position with
      | error e => rfl
      | ok w' => exact ih w'
    | empty tag =>
      refine Eq.trans ?_ (run_start w tag position (.item .leave rest.eventSignals)).symm
      show (match (w.start tag position).bind Walker.finish with
        | .error e => w.stopped e
        | .ok w' => w'.follow rest) = _
      cases opened : w.start tag position with
      | error e => rfl
      | ok w₁ =>
        refine Eq.trans ?_ (run_finish w₁ _).symm
        show (match w₁.finish with
          | .error e => w.stopped e
          | .ok w' => w'.follow rest) = _
        cases w₁.finish with
        | error e =>
          exact congrArg (fun elements => Decoded.mk elements.reverse (some e))
            (elements_of_start opened).symm
        | ok w' => exact ih w'
    | finish name =>
      refine Eq.trans ?_ (run_finish w _).symm
      show (match w.finish with
        | .error e => w.stopped e
        | .ok w' => w'.follow rest) = _
      cases w.finish with
      | error e => rfl
      | ok w' => exact ih w'
    | text raw => exact (ih _).trans (run_piece w position (.text raw) _).symm
    | verbatim raw => exact (ih _).trans (run_piece w position (.verbatim raw) _).symm
    | other => exact ih w

/-! ## What elements stand for -/

/-- How tags and character data are read where they are events. -/
def dialect : Dialect (Nat × Tag) (Nat × Piece) where
  name tag := tag.2.name
  attributes tag :=
    match EventAttribute.readAll tag.2.content tag.2.nameLength with
    | .error fault => .error (.malformed tag.1 (.eventAttribute fault))
    | .ok attributes => .ok (attributes.map fun a => (a.key, a.value))
  value tag raw := unescapeAt tag.1 raw
  text _ piece := readPieceAt piece.1 piece.2

theorem dialect_attributes (tag : Nat × Tag) :
    dialect.attributes tag =
      match EventAttribute.readAll tag.2.content tag.2.nameLength with
      | .error fault => .error (.malformed tag.1 (.eventAttribute fault))
      | .ok attributes => .ok (attributes.map fun a => (a.key, a.value)) :=
  rfl

/-- The text directly in a child. -/
def childText (content : Forest (Nat × Tag) (Nat × Piece)) : Deferred :=
  (content.pieces.mapM fun piece => readPieceAt piece.1 piece.2).map List.flatten

theorem fill_field (field : FieldName) (content : Forest (Nat × Tag) (Nat × Piece)) :
    collector.fill (field, .ok []) content = (field, childText content) := by
  have stays (pieces : List (Nat × Piece)) (e : DecodeError) :
      pieces.foldl addPiece (field, .error e) = (field, .error e) := by
    induction pieces with
    | nil => rfl
    | cons piece rest ih => exact ih
  suffices general : ∀ (pieces : List (Nat × Piece)) (sofar : List Char),
      pieces.foldl addPiece (field, .ok sofar) =
        (field, (pieces.mapM fun piece => readPieceAt piece.1 piece.2).map
          fun texts => sofar ++ texts.flatten) from general content.pieces []
  intro pieces
  induction pieces with
  | nil =>
    exact fun sofar =>
      congrArg (fun text => (field, Except.ok text)) (List.append_nil sofar).symm
  | cons piece rest ih =>
    intro sofar
    rw [List.foldl_cons, List.mapM_cons, addPiece]
    cases readPieceAt piece.1 piece.2 with
    | error e => exact stays rest e
    | ok text =>
      refine (ih (sofar ++ text)).trans (congrArg (Prod.mk field) ?_)
      simp only [List.append_assoc]
      cases rest.mapM fun piece => readPieceAt piece.1 piece.2 <;> rfl

/-- An element takes the text of a child that stands for one of its fields. -/
theorem receive_eq (member : Pending) (branch : (Nat × Tag) × Forest (Nat × Tag) (Nat × Piece)) :
    collector.receive member branch =
      match member.childField? branch.1.2.name with
      | none => member
      | some field => member.setChild field (childText branch.2) := by
  have found : collector.child? member branch.1 =
      (member.childField? branch.1.2.name).map (·, .ok []) := rfl
  rw [Collector.receive, found]
  cases member.childField? branch.1.2.name with
  | none => rfl
  | some field =>
    exact congrArg (fun child => member.setChild child.1 child.2) (fill_field field branch.2)

/-- The last text under a name, in place of an earlier one. -/
def lastText (name : String) (branches : List ((Nat × Tag) × Forest (Nat × Tag) (Nat × Piece)))
    (before : Option Deferred) : Option Deferred :=
  match (branches.filter (dialect.name ·.1 == Bytes.ofAscii name)).getLast? with
  | none => before
  | some branch => some (childText branch.2)

theorem lastText_cons (name : String) (branch : (Nat × Tag) × Forest (Nat × Tag) (Nat × Piece))
    (branches : List ((Nat × Tag) × Forest (Nat × Tag) (Nat × Piece)))
    (before : Option Deferred) :
    lastText name (branch :: branches) before =
      lastText name branches
        (if branch.1.2.name = Bytes.ofAscii name then some (childText branch.2) else before) := by
  unfold lastText
  rw [List.filter_cons]
  by_cases named : branch.1.2.name = Bytes.ofAscii name
  · have same : (dialect.name branch.1 == Bytes.ofAscii name) = true := beq_iff_eq.2 named
    rw [if_pos same, List.getLast?_cons, if_pos named]
    cases (branches.filter (dialect.name ·.1 == Bytes.ofAscii name)).getLast? <;> rfl
  · have apart : ¬ (dialect.name branch.1 == Bytes.ofAscii name) = true :=
      fun same => named (eq_of_beq same)
    rw [if_neg apart, if_neg named]

/-- A node keeps the text of its last cost. -/
theorem gather_node (id cost : Option Deferred) (content : Forest (Nat × Tag) (Nat × Piece)) :
    collector.gather (.node id cost) content =
      .node id (lastText "cost" content.branches cost) := by
  unfold Collector.gather
  generalize content.branches = branches
  induction branches generalizing cost with
  | nil => rfl
  | cons branch others ih =>
    rw [List.foldl_cons, lastText_cons, ← ih, receive_eq, Pending.childField?]
    by_cases isCost : branch.1.2.name = Bytes.ofAscii "cost"
    · rw [if_pos isCost, if_pos isCost]
      rfl
    · rw [if_neg isCost, if_neg isCost]

/-- An edge keeps the texts of its last source, target and cost. -/
theorem gather_edge (directed source target cost : Option Deferred)
    (content : Forest (Nat × Tag) (Nat × Piece)) :
    collector.gather (.edge directed source target cost) content =
      .edge directed (lastText "source" content.branches source)
        (lastText "target" content.branches target) (lastText "cost" content.branches cost) := by
  have distinct : Bytes.ofAscii "source" ≠ Bytes.ofAscii "cost" ∧
      Bytes.ofAscii "target" ≠ Bytes.ofAscii "cost" ∧
      Bytes.ofAscii "target" ≠ Bytes.ofAscii "source" := by decide
  unfold Collector.gather
  generalize content.branches = branches
  induction branches generalizing source target cost with
  | nil => rfl
  | cons branch others ih =>
    rw [List.foldl_cons, lastText_cons, lastText_cons, lastText_cons, ← ih, receive_eq,
      Pending.childField?]
    congr 1
    by_cases isCost : branch.1.2.name = Bytes.ofAscii "cost"
    · rw [isCost, if_pos rfl, if_neg distinct.1.symm, if_neg distinct.2.1.symm, if_pos rfl]
      rfl
    · rw [if_neg isCost, if_neg isCost]
      by_cases isSource : branch.1.2.name = Bytes.ofAscii "source"
      · rw [isSource, if_pos rfl, if_pos rfl, if_neg distinct.2.2.symm]
        rfl
      · rw [if_neg isSource, if_neg isSource]
        by_cases isTarget : branch.1.2.name = Bytes.ofAscii "target"
        · rw [if_pos isTarget, if_pos isTarget]
          rfl
        · rw [if_neg isTarget, if_neg isTarget]

/-- The text under a name is that of the last child. -/
theorem resolve_lastText (name : String) (content : Forest (Nat × Tag) (Nat × Piece)) :
    Pending.resolve (lastText name content.branches none) = dialect.childText? content name := by
  unfold lastText Dialect.childText? Dialect.lastChild?
  cases (content.branches.filter (dialect.name ·.1 == Bytes.ofAscii name)).getLast? with
  | none => rfl
  | some branch =>
    have texts : (childText branch.2).map some =
        (branch.2.pieces.mapM fun piece => readPieceAt piece.1 piece.2).map
          fun texts => some texts.flatten := by
      unfold childText
      cases branch.2.pieces.mapM fun piece => readPieceAt piece.1 piece.2 <;> rfl
    exact texts

/-- The first attribute with a name, and its text. -/
theorem resolve_attribute (tag : Nat × Tag) (attributes : List EventAttribute) (name : String) :
    Pending.resolve ((attributes.find? (·.key == Bytes.ofAscii name)).map fun a =>
        unescapeAt tag.1 a.value) =
      dialect.attributeText? tag (attributes.map fun a => (a.key, a.value)) name := by
  have found : (attributes.map fun a => (a.key, a.value)).lookup (Bytes.ofAscii name) =
      (attributes.find? (·.key == Bytes.ofAscii name)).map (·.value) :=
    AttributeList.lookup_unplaced _ attributes
  unfold Dialect.attributeText?
  rw [found]
  cases attributes.find? (·.key == Bytes.ofAscii name) with
  | none => rfl
  | some a => rfl

/-- A member begins with the attribute that matters, unless its attribute list is at fault. -/
def opened (attributes : List EventAttribute) (position : Nat) : ElementKind → Pending
  | .node =>
    .node ((attributes.find? (·.key == Bytes.ofAscii "id")).map fun a =>
      unescapeAt position a.value) none
  | .edge =>
    .edge ((attributes.find? (·.key == Bytes.ofAscii "directed")).map fun a =>
      unescapeAt position a.value) none none none

theorem openElement_eq (kind : ElementKind) (tag : Tag) (position : Nat) :
    openElement kind tag position =
      match EventAttribute.readAll tag.content tag.nameLength with
      | .error fault => .error (.malformed position (.eventAttribute fault))
      | .ok attributes => .ok (opened attributes position kind) := by
  unfold openElement
  cases EventAttribute.readAll tag.content tag.nameLength with
  | error fault => rfl
  | ok attributes =>
    cases kind with
    | node =>
      have found : opened attributes position .node =
          .node ((attributes.find? (·.key == (Pending.ofKind .node).attributeName)).map fun a =>
            unescapeAt position a.value) none := rfl
      dsimp only
      rw [found]
      cases attributes.find? (·.key == (Pending.ofKind .node).attributeName) <;> rfl
    | edge =>
      have found : opened attributes position .edge =
          .edge ((attributes.find? (·.key == (Pending.ofKind .edge).attributeName)).map fun a =>
            unescapeAt position a.value) none none none := rfl
      dsimp only
      rw [found]
      cases attributes.find? (·.key == (Pending.ofKind .edge).attributeName) <;> rfl

/-- An element with its children stands for what its forest does. -/
theorem meaning_gather (kind : ElementKind) (tag : Nat × Tag)
    (content : Forest (Nat × Tag) (Nat × Piece)) :
    ((openElement kind tag.2 tag.1).bind fun member =>
      (collector.gather member content).meaning) = dialect.meaning kind tag content := by
  rw [openElement_eq]
  unfold Dialect.meaning
  rw [dialect_attributes]
  cases EventAttribute.readAll tag.2.content tag.2.nameLength with
  | error fault => rfl
  | ok attributes =>
    cases kind with
    | node =>
      show (collector.gather (opened attributes tag.1 .node) content).meaning = _
      rw [opened, gather_node, Pending.meaning, resolve_attribute, resolve_lastText]
      simp only [NodeFields.toNode, bind_assoc, pure_bind]
      rfl
    | edge =>
      show (collector.gather (opened attributes tag.1 .edge) content).meaning = _
      rw [opened, gather_edge, Pending.meaning, resolve_attribute, resolve_lastText,
        resolve_lastText, resolve_lastText]
      simp only [EdgeFields.toEdge, EdgeFields.isDirected, bind_assoc, pure_bind,
        Dialect.directed_eq]
      rfl

theorem begin?_eq (tag : Nat × Tag) :
    collector.begin? tag = (dialect.kind? tag).map fun kind => openElement kind tag.2 tag.1 := by
  rw [dialect.kind?_eq]
  rfl

theorem meaning?_eq (tag : Nat × Tag) (content : Forest (Nat × Tag) (Nat × Piece)) :
    collector.meaning? tag content = dialect.meaning? tag content := by
  rw [Collector.meaning?, Dialect.meaning?, begin?_eq]
  cases dialect.kind? tag with
  | none => rfl
  | some kind => exact congrArg some (meaning_gather kind tag content)

theorem openFault?_eq (tag : Nat × Tag) : collector.openFault? tag = dialect.openFault? tag := by
  rw [Collector.openFault?, Dialect.openFault?, begin?_eq, dialect_attributes]
  cases dialect.kind? tag with
  | none => rfl
  | some kind =>
    rw [Option.map_some, openElement_eq]
    cases EventAttribute.readAll tag.2.content tag.2.nameLength <;> rfl

/-! ## Sequences of events -/

/-- Events that close nothing that is not open traverse an outline, and the walker gives what its
members stand for: the graph, or the first error of a member, or else the error of the end. Whatever
the walker follows, what it has in hand fits the number of open elements. -/
theorem follow_of_events (events : List (Nat × Event)) (n : Nat)
    (closesOpen : Signal.openAfter 0 (eventSignals events) = some n) :
    (∃ o : Outline (Nat × Tag) (Nat × Piece), o.signals = eventSignals events) ∧
    (∀ o : Outline (Nat × Tag) (Nat × Piece), o.signals = eventSignals events →
      o.depth = n ∧
      (follow {} (Feed.prepend events .finished)).graph =
        (o.members dialect.meaning? dialect.openFault?).outcome o.endFault?) ∧
    ∀ w : Walker, Reachable w →
      (w.pending.isSome → 2 ≤ w.depth) ∧
      (w.field.isSome → w.pending.isSome ∧ 3 ≤ w.depth) := by
  refine ⟨?_, fun o traversed => ⟨?_, ?_⟩, fun w reachable => ?_⟩
  · obtain ⟨o, -, traversed⟩ := Outline.exists_of_openAfter closesOpen
    exact ⟨o, traversed⟩
  · have opened := o.openAfter_signals
    rw [traversed, closesOpen] at opened
    exact (Option.some.inj opened).symm
  · rw [follow_eq_run, Feed.eventSignals_prepend, ← traversed]
    refine (congrArg Decoded.graph (Collector.run_finished o)).trans ?_
    rw [o.members_congr meaning?_eq openFault?_eq, Decoded.graph_ofResults]
  · exact ⟨reachable.wellPlaced.pending, reachable.wellPlaced.field⟩

/-- A node with a cost, and one whose parent is still open at the end. -/
theorem follow_of_events_unclosed :
    let g := Tag.ofContent (Bytes.ofAscii "g")
    let node := Tag.ofContent (Bytes.ofAscii "node id='1'")
    let cost := Tag.ofContent (Bytes.ofAscii "cost")
    let events : List (Nat × Event) := [(0, .start g), (3, .start node), (16, .start cost),
      (22, .text [0x32]), (23, .finish cost.name), (30, .finish node.name), (37, .empty node)]
    Signal.openAfter 0 (eventSignals events) = some 1 ∧
      (follow {} (Feed.prepend events .finished)).graph = .error (.truncated 1) ∧
      (follow {} (Feed.prepend (events ++ [(51, .finish g.name)]) .finished)).graph =
        .ok ⟨[⟨1, .ofDecimal false 2 0⟩, ⟨1, .zero false⟩], []⟩ := by
  intro g node cost events
  let content : Forest (Nat × Tag) (Nat × Piece) :=
    .element (3, node) (.element (16, cost) (.data (22, .text [0x32]) .done) .done)
      (.element (37, node) .done .done)
  refine ⟨rfl, ?_, ?_⟩
  · refine ((follow_of_events events 1 rfl).2.1 ⟨[(.done, (0, g))], content⟩ rfl).2.trans ?_
    decide +kernel
  · refine ((follow_of_events (events ++ [(51, .finish g.name)]) 0 rfl).2.1
      ⟨[], .element (0, g) content .done⟩ rfl).2.trans ?_
    decide +kernel

end Walker
end GraphScribe
