import GraphScribe.Proofs.Decode.StreamingTree

/-!
# From construct to construct

The reader of elements takes a document construct by construct. `Place.read` is what one construct
does, and `Runs` is what comes of all constructs from a place on: the document ends, a construct is at
fault, the reader refuses a construct, or it goes on after it.

* `Place.run_of_construct`: one construct of a run.
* `Streaming.runs_decode`, `Streaming.decode_of_runs`: decoding a document is running it from its
  beginning.
-/

namespace GraphScribe

open Markup

/-- A place in a document, at the offset that is given. -/
def Markup.Cursor.within (document : Bytes) (offset : Nat) : Cursor :=
  ⟨document.drop offset, offset⟩

theorem Markup.Cursor.within_advance (document : Bytes) (offset n : Nat) :
    (Cursor.within document offset).advance n = .within document (offset + n) := by
  rw [within, advance, List.drop_drop]
  rfl

/-- What the reader of elements knows at a place: the names of the open elements (the innermost
first), from where on the next token is looked for, and what was collected. -/
structure Place where
  openNames : List Bytes := []
  start : Nat
  progress : Progress Element (Bytes × RawText) := {}

namespace Place

open ElementReader (collector)

variable {p p' : Place} {c : Cursor} {b : UInt8} {rest : Bytes} {construct : Construct} {n : Nat}

/-- What is found from a place on. -/
def run (p : Place) (c : Cursor) : Except DecodeError Graph :=
  (collector.run p.progress (nested p.openNames (c.feed p.start))).graph

/-- A start tag that ends at `stop`. -/
def enter (p : Place) (stop : Nat) (name attributes : Bytes) (isEmpty : Bool) :
    Except DecodeError Place :=
  (collector.enter p.progress ⟨p.start, name, attributes⟩).bind fun opened =>
    if isEmpty then (collector.leave opened).map (⟨p.openNames, stop, ·⟩)
    else .ok ⟨name :: p.openNames, stop, opened⟩

/-- An end tag that ends at `stop`. -/
def leave (p : Place) (stop : Nat) (name : Bytes) : Except DecodeError Place :=
  match p.openNames with
  | [] => .error (.malformed p.start (.unmatchedTag name))
  | expected :: others =>
    if expected == name then (collector.leave p.progress).map (⟨others, stop, ·⟩)
    else .error (.malformed p.start (.mismatchedTags expected name))

/-- A construct that ends at `stop`. -/
def read (p : Place) (stop : Nat) : Construct → Except DecodeError Place
  | .token (.start name attributes isEmpty) => p.enter stop name attributes isEmpty
  | .token (.finish name) => p.leave stop name
  | .token (.piece piece) => .ok ⟨p.openNames, stop, collector.data p.progress piece⟩
  | .silent => .ok p

/-- The error of a construct at fault. -/
def faultError (p : Place) (offset : Nat) : ConstructFault → DecodeError
  | .unclosed => .truncated p.progress.depth
  | .unknownDeclaration => .malformed offset .unknownDeclaration

/-! ## Runs construct by construct -/

theorem run_of_nil (left : c.rest = []) : p.run c = p.progress.result.graph := by
  rw [run, Cursor.feed_of_nil left]
  rfl

theorem run_of_fault {fault : ConstructFault} (left : c.rest = b :: rest)
    (faulty : readConstruct (b :: rest) = .error fault) :
    p.run c = .error (p.faultError c.position fault) := by
  cases fault with
  | unclosed =>
    rw [run, Cursor.feed_of_unclosed left faulty]
    rfl
  | unknownDeclaration =>
    rw [run, Cursor.feed_of_unknown left faulty]
    rfl

theorem run_enter (p : Place) (c : Cursor) (name attributes : Bytes) (isEmpty : Bool) :
    (collector.run p.progress (nested p.openNames
      (.item (p.start, .start name attributes isEmpty) (c.feed c.position)))).graph =
      (p.enter c.position name attributes isEmpty).bind (·.run c) := by
  refine (Collector.graph_run _ _ _).trans ?_
  unfold enter
  show (collector.enter p.progress _).bind _ = _
  cases collector.enter p.progress ⟨p.start, name, attributes⟩ with
  | error e => rfl
  | ok opened =>
    cases isEmpty with
    | false => rfl
    | true =>
      refine (Collector.graph_run _ _ _).trans ?_
      show (collector.leave opened).bind _ = ((collector.leave opened).map _).bind _
      cases collector.leave opened <;> rfl

theorem run_leave (p : Place) (c : Cursor) (name : Bytes) :
    (collector.run p.progress (nested p.openNames
      (.item (p.start, .finish name) (c.feed c.position)))).graph =
      (p.leave c.position name).bind (·.run c) := by
  unfold leave
  cases p.openNames with
  | nil => rfl
  | cons expected others =>
    have signals : nested (expected :: others) (.item (p.start, .finish name) (c.feed c.position)) =
        if expected == name then .item .leave (nested others (c.feed c.position))
        else .broken (.malformed p.start (.mismatchedTags expected name)) := rfl
    rw [signals]
    dsimp only
    split
    · refine (Collector.graph_run _ _ _).trans ?_
      show (collector.leave p.progress).bind _ = ((collector.leave p.progress).map _).bind _
      cases collector.leave p.progress <;> rfl
    · rfl

/-- What is found from a place on is what is found after its construct. -/
theorem run_of_construct (left : c.rest = b :: rest)
    (constructed : readConstruct (b :: rest) = .ok (construct, n)) :
    p.run c = (p.read (c.position + n) construct).bind (·.run (c.advance n)) := by
  rcases construct with (⟨name, attributes, isEmpty⟩ | name | piece) | _
  · rw [run, Cursor.feed_of_token left constructed]
    exact p.run_enter (c.advance n) name attributes isEmpty
  · rw [run, Cursor.feed_of_token left constructed]
    exact p.run_leave (c.advance n) name
  · rw [run, Cursor.feed_of_token left constructed]
    rfl
  · rw [run, Cursor.feed_of_next (Cursor.next_of_silent left constructed)]
    rfl

/-! ## Open elements -/

/-- The open elements are those that are counted. -/
def Sound (p : Place) : Prop :=
  p.progress.depth = p.openNames.length

theorem of_enter {stop : Nat} {name attributes : Bytes} {isEmpty : Bool}
    (entered : p.enter stop name attributes isEmpty = .ok p') :
    p'.openNames = (if isEmpty then p.openNames else name :: p.openNames) ∧
      p'.progress.depth = (if isEmpty then p.progress.depth else p.progress.depth + 1) := by
  unfold enter at entered
  cases opens : collector.enter p.progress ⟨p.start, name, attributes⟩ with
  | error e =>
    rw [opens] at entered
    cases entered
  | ok opened =>
    have deeper := Collector.depth_of_enter opens
    rw [opens] at entered
    cases isEmpty with
    | false =>
      cases entered
      exact ⟨rfl, deeper⟩
    | true =>
      change (collector.leave opened).map _ = .ok p' at entered
      cases closes : collector.leave opened with
      | error e =>
        rw [closes] at entered
        cases entered
      | ok closed =>
        rw [closes] at entered
        cases entered
        refine ⟨rfl, ?_⟩
        rw [Collector.depth_of_leave closes, deeper]
        rfl

theorem of_leave {stop : Nat} {name : Bytes} (left : p.leave stop name = .ok p') :
    p.openNames = name :: p'.openNames ∧ p'.progress.depth = p.progress.depth - 1 := by
  unfold leave at left
  cases names : p.openNames with
  | nil =>
    rw [names] at left
    cases left
  | cons expected others =>
    rw [names] at left
    dsimp only at left
    split at left
    · next same =>
      cases closes : collector.leave p.progress with
      | error e =>
        rw [closes] at left
        cases left
      | ok closed =>
        rw [closes] at left
        cases left
        exact ⟨by rw [eq_of_beq same], Collector.depth_of_leave closes⟩
    · cases left

theorem depth_of_data (s : Progress Element (Bytes × RawText)) (piece : Piece) :
    (collector.data s piece).depth = s.depth := by
  unfold Collector.data
  split
  · split <;> rfl
  · rfl

theorem Sound.read {stop : Nat} (sound : p.Sound) (next : p.read stop construct = .ok p') :
    p'.Sound := by
  unfold Sound at sound ⊢
  rcases construct with (⟨name, attributes, isEmpty⟩ | name | piece) | _
  · obtain ⟨names, depth⟩ := of_enter next
    rw [names, depth, sound]
    cases isEmpty <;> rfl
  · obtain ⟨names, depth⟩ := of_leave next
    rw [depth, sound, names, List.length_cons, Nat.add_sub_cancel]
  · cases next
    exact (depth_of_data _ _).trans sound
  · cases next
    exact sound

end Place

/-! ## What comes of a document -/

/-- What comes of a document from a place on. -/
inductive Runs (document : Bytes) : Place → Nat → Except DecodeError Graph → Prop
  | ended {p : Place} {offset : Nat} (left : document.drop offset = []) :
    Runs document p offset p.progress.result.graph
  | faulty {p : Place} {offset : Nat} {b : UInt8} {rest : Bytes} {fault : ConstructFault}
      (left : document.drop offset = b :: rest) (faulty : readConstruct (b :: rest) = .error fault) :
    Runs document p offset (.error (p.faultError offset fault))
  | refused {p : Place} {offset n : Nat} {b : UInt8} {rest : Bytes} {construct : Construct}
      {e : DecodeError} (left : document.drop offset = b :: rest)
      (constructed : readConstruct (b :: rest) = .ok (construct, n))
      (refused : p.read (offset + n) construct = .error e) :
    Runs document p offset (.error e)
  | step {p p' : Place} {offset n : Nat} {b : UInt8} {rest : Bytes} {construct : Construct}
      {outcome : Except DecodeError Graph} (left : document.drop offset = b :: rest)
      (constructed : readConstruct (b :: rest) = .ok (construct, n))
      (next : p.read (offset + n) construct = .ok p') (later : Runs document p' (offset + n) outcome) :
    Runs document p offset outcome

variable {document : Bytes} {p : Place} {offset : Nat} {outcome : Except DecodeError Graph}

theorem Place.run_within {b : UInt8} {rest : Bytes} {construct : Construct} {n : Nat}
    (left : document.drop offset = b :: rest)
    (constructed : readConstruct (b :: rest) = .ok (construct, n)) :
    p.run (.within document offset) =
      (p.read (offset + n) construct).bind (·.run (.within document (offset + n))) := by
  rw [← Cursor.within_advance]
  exact Place.run_of_construct (c := .within document offset) left constructed

theorem Runs.outcome_eq (runs : Runs document p offset outcome) :
    p.run (.within document offset) = outcome := by
  induction runs with
  | @ended p offset left => exact Place.run_of_nil (c := .within document offset) left
  | @faulty p offset b rest fault left faulty =>
    exact Place.run_of_fault (c := .within document offset) left faulty
  | refused left constructed refused =>
    rw [Place.run_within left constructed, refused]
    rfl
  | step left constructed next later ih =>
    rw [Place.run_within left constructed, next]
    exact ih

/-- Something comes of a document from every place on. The induction is on the bytes that are
left; every construct takes at least one. -/
theorem runs_run (document : Bytes) (p : Place) (offset : Nat) :
    Runs document p offset (p.run (.within document offset)) := by
  induction length : (document.drop offset).length using Nat.strongRecOn generalizing p offset with
  | ind length ih =>
    cases left : document.drop offset with
    | nil =>
      rw [Place.run_of_nil (c := .within document offset) left]
      exact .ended left
    | cons b rest =>
      rcases constructed : readConstruct (b :: rest) with fault | ⟨construct, n⟩
      · rw [Place.run_of_fault (c := .within document offset) left constructed]
        exact .faulty left constructed
      · rw [Place.run_within left constructed]
        rcases next : p.read (offset + n) construct with e | p'
        · exact .refused left constructed next
        · refine .step left constructed next (ih _ ?_ p' (offset + n) rfl)
          have pos := readConstruct_pos constructed
          rw [← List.drop_drop, List.length_drop, left, ← length, left, List.length_cons]
          omega

namespace Streaming

/-- The offset at which the markup of a document begins. -/
def bodyOffset (document : Bytes) : Nat :=
  if byteOrderMark.isPrefixOf document then 3 else 0

theorem decode_eq (document : Bytes) :
    decode document = Place.run { start := bodyOffset document }
      (.within document (bodyOffset document)) := by
  rw [decode_eq_run]
  unfold ElementReader.ofBytes bodyOffset
  split <;> rfl

/-- Decoding a document is running it from its beginning. -/
theorem runs_decode (document : Bytes) :
    Runs document { start := bodyOffset document } (bodyOffset document) (decode document) := by
  rw [decode_eq]
  exact runs_run document _ _

theorem decode_of_runs {outcome : Except DecodeError Graph}
    (runs : Runs document { start := bodyOffset document } (bodyOffset document) outcome) :
    decode document = outcome := by
  rw [decode_eq]
  exact runs.outcome_eq

end Streaming
end GraphScribe
