import GraphScribe.Proofs.Decode.InStep

/-!
# Decoders at one place

The walker and the reader of elements take a document construct by construct. `Walker.Reaches` are
the states of the walker up to the first place where the readings part. At each of them the reader
of elements is at the same place of the document, with the same elements open, and what both keep is
in step (`Together`). So the decoders end alike, or the readings part somewhere
(`Walker.Reaches.same_or_parting`).
-/

namespace GraphScribe

open Markup

/-! ## One event -/

namespace Walker

variable {w w' : Walker} {r r' : EventReader} {e : Event}

theorem follow_event (next : r.next = .ok (some (e, r'))) (w : Walker) :
    (w.follow r.feed).graph = (w.step r.position e).bind fun w' => (w'.follow r'.feed).graph := by
  rw [EventReader.feed]
  split
  · next next' => cases next.symm.trans next'
  · next next' => cases next.symm.trans next'
  · next next' =>
    cases next.symm.trans next'
    rw [follow]
    cases w.step r.position e <;> rfl

theorem follow_stop {stop : EventStop} (next : r.next = .error stop) (w : Walker) :
    (w.follow r.feed).graph = .error (w.stopError r.position stop) := by
  rw [EventReader.feed]
  split
  · next next' =>
    cases next.symm.trans next'
    cases stop <;> rfl
  · next next' => cases next.symm.trans next'
  · next next' => cases next.symm.trans next'

theorem follow_end (next : r.next = .ok none) (w : Walker) : w.follow r.feed = w.result := by
  rw [EventReader.feed]
  split
  · next next' => cases next.symm.trans next'
  · rfl
  · next next' => cases next.symm.trans next'

theorem depth_of_start {tag : Tag} {position : Nat} (opened : w.start tag position = .ok w') :
    w'.depth = w.depth + 1 := by
  have entered := enter_progress w tag position
  rw [opened] at entered
  exact Collector.depth_of_enter entered

theorem depth_of_collect (w : Walker) (text : Deferred) : (w.collect text).depth = w.depth := by
  unfold collect
  split
  · split <;> rfl
  · rfl

theorem depth_of_finish (closed : w.finish = .ok w') : w'.depth = w.depth - 1 := by
  have left := leave_progress w
  rw [closed] at left
  exact Collector.depth_of_leave left

end Walker

namespace Markup.EventReader

variable {r r' : EventReader} {e : Event}

/-- The reader after an event has tracked it. -/
theorem tracked_of_next (failure : r.failure = none) (read : r.next = .ok (some (e, r'))) :
    ∃ n, (r.advance n).track e = .ok r' := by
  cases left : r.rest with
  | nil => cases (next_of_nil failure left).symm.trans read
  | cons b rest =>
    cases scanned : Scan.ofBytes (b :: rest) with
    | event e' n =>
      have tracked := (next_of_event left scanned).symm.trans read
      cases outcome : (r.advance n).track e' with
      | error stop =>
        rw [outcome] at tracked
        cases tracked
      | ok r'' =>
        rw [outcome] at tracked
        cases tracked
        exact ⟨n, outcome⟩
    | tail raw =>
      cases (next_of_tail failure left scanned).symm.trans read
      exact ⟨rest.length + 1, rfl⟩
    | fault fault => cases (next_of_fault failure left (.inr scanned)).symm.trans read
    | ended fault => cases (next_of_fault failure left (.inl scanned)).symm.trans read

end Markup.EventReader

/-! ## Both decoders at one place -/

/-- The states of the walker in which it asks for an event of a document, with what is left, up to
the first place where the readings part. -/
inductive Walker.Reaches (document : Bytes) : Walker → EventReader → Prop where
  | start : Reaches document {} (.ofSource (.ofBytes document))
  | step {w w' : Walker} {r r' : EventReader} {e : Event} :
    Reaches document w r → (∀ cause, ¬ Parting r.openNames cause r.rest) →
    r.next = .ok (some (e, r')) → w.step r.position e = .ok w' → Reaches document w' r'

/-- What the reader of elements finds from a place on. -/
def elementsFrom (openNames : List Bytes) (start : Nat) (c : Cursor)
    (s : Progress Element (Bytes × RawText)) : Except DecodeError Graph :=
  (ElementReader.collector.run s (nested openNames (c.feed start))).graph

/-- The walker and the reader of elements are at one place of a document, with the same elements
open, and in step. -/
structure Together (document : Bytes) (w : Walker) (r : EventReader) (c : Cursor)
    (s : Progress Element (Bytes × RawText)) (start : Nat) : Prop where
  rest : c.rest = r.rest
  failure : r.failure = none
  depth : w.depth = r.openNames.length
  clean : ∀ name ∈ r.openNames, ∀ b ∈ name, isWideSpace b = false
  inStep : InStep w.progress s
  found : elementsFrom r.openNames start c s = Streaming.decode document

/-- The decoders end alike at a place, or go on together from the next one. -/
def GoesOn (document : Bytes) (w : Walker) (r : EventReader) : Prop :=
  (SameOutcome (w.follow r.feed).graph (Streaming.decode document) ∧
    ∀ e r' w', r.next = .ok (some (e, r')) → w.step r.position e ≠ .ok w') ∨
  ∃ e r' w' c' s' start', r.next = .ok (some (e, r')) ∧ w.step r.position e = .ok w' ∧
    Together document w' r' c' s' start'

section Steps

variable {document : Bytes} {w : Walker} {r r' : EventReader} {c c' : Cursor}
  {s : Progress Element (Bytes × RawText)} {start start' : Nat} {e : Event}

/-- An event leads on to a place where both are together again, if what corresponds to it does. -/
theorem Together.next {w' : Walker} {s' : Progress Element (Bytes × RawText)}
    (together : Together document w r c s start) (next : r.next = .ok (some (e, r')))
    (stepped : w.step r.position e = .ok w') (same : InStep w'.progress s')
    (rest : c'.rest = r'.rest)
    (clean : ∀ tag, e = .start tag → ∀ b ∈ tag.name, isWideSpace b = false)
    (found : elementsFrom r'.openNames start' c' s' = Streaming.decode document) :
    Together document w' r' c' s' start' := by
  obtain ⟨n, tracked⟩ := EventReader.tracked_of_next together.failure next
  obtain ⟨-, failure, depth, cleanBefore, -, -⟩ := together
  unfold EventReader.track at tracked
  cases e with
  | start tag =>
    cases tracked
    refine ⟨rest, failure, ?_, ?_, same, found⟩
    · exact (Walker.depth_of_start stepped).trans (congrArg Nat.succ depth)
    · exact List.forall_mem_cons.2 ⟨clean tag rfl, cleanBefore⟩
  | empty tag =>
    cases tracked
    have both : (w.start tag r.position).bind Walker.finish = .ok w' := stepped
    cases opened : w.start tag r.position with
    | error e =>
      rw [opened] at both
      cases both
    | ok w₁ =>
      rw [opened] at both
      refine ⟨rest, failure, ?_, cleanBefore, same, found⟩
      rw [Walker.depth_of_finish both, Walker.depth_of_start opened]
      exact depth
  | finish name =>
    have names : (r.advance n).openNames = r.openNames := rfl
    rw [names] at tracked
    cases open_ : r.openNames with
    | nil =>
      rw [open_] at tracked
      cases tracked
    | cons expected others =>
      rw [open_] at tracked depth cleanBefore
      dsimp only at tracked
      split at tracked
      · cases tracked
        refine ⟨rest, failure, ?_, (List.forall_mem_cons.1 cleanBefore).2, same, found⟩
        rw [Walker.depth_of_finish stepped, depth]
        rfl
      · cases tracked
  | text raw =>
    cases tracked
    cases stepped
    exact ⟨rest, failure, (w.depth_of_collect _).trans depth, cleanBefore, same, found⟩
  | verbatim raw =>
    cases tracked
    cases stepped
    exact ⟨rest, failure, (w.depth_of_collect _).trans depth, cleanBefore, same, found⟩
  | other =>
    cases tracked
    cases stepped
    exact ⟨rest, failure, depth, cleanBefore, same, found⟩

theorem Together.ends (together : Together document w r c s start)
    {stop : EventStop} (next : r.next = .error stop) {e' : DecodeError}
    (run : elementsFrom r.openNames start c s = .error e')
    (same : (w.stopError r.position stop).Same e') : GoesOn document w r := by
  refine .inl ⟨?_, fun e r' w' next' => ?_⟩
  · rw [Walker.follow_stop next, ← together.found, run]
    exact same
  · cases next.symm.trans next'

/-- Where an event and what corresponds to it keep the decoders in step, or stop both, they go on
together or end alike. -/
theorem Together.goesOn {outcome : Except DecodeError (Progress Element (Bytes × RawText))}
    (together : Together document w r c s start) (next : r.next = .ok (some (e, r')))
    (c' : Cursor) (start' : Nat) (rest : c'.rest = r'.rest)
    (clean : ∀ tag, e = .start tag → ∀ b ∈ tag.name, isWideSpace b = false)
    (alike : Alike DecodeError.Same (fun w' s' => InStep w'.progress s') (w.step r.position e)
      outcome)
    (run : elementsFrom r.openNames start c s =
      outcome.bind fun s' => elementsFrom r'.openNames start' c' s') :
    GoesOn document w r := by
  have found := together.found
  rw [run] at found
  cases stepped : w.step r.position e with
  | error fault =>
    cases outcome with
    | error fault' =>
      rw [stepped] at alike
      refine .inl ⟨?_, fun e' r'' w' next' => ?_⟩
      · rw [Walker.follow_event next, stepped, ← found]
        exact alike
      · cases next.symm.trans next'
        rw [stepped]
        exact (nomatch ·)
    | ok s' =>
      rw [stepped] at alike
      exact alike.elim
  | ok w' =>
    cases outcome with
    | error fault' =>
      rw [stepped] at alike
      exact alike.elim
    | ok s' =>
      rw [stepped] at alike
      exact .inr ⟨e, r', w', c', s', start', next, stepped,
        together.next next stepped alike rest clean found⟩

variable {b : UInt8} {rest : Bytes} {n : Nat}

theorem Together.rest_advance (together : Together document w r c s start) (n : Nat) :
    (c.advance n).rest = (r.advance n).rest :=
  congrArg (List.drop n) together.rest

theorem Together.goesOn_silent (together : Together document w r c s start)
    (left : r.rest = b :: rest) (scanned : Scan.ofBytes (b :: rest) = .event .other n)
    (read : readConstruct (b :: rest) = .ok (.silent, n)) : GoesOn document w r := by
  have next : r.next = .ok (some (.other, r.advance n)) := EventReader.next_of_event left scanned
  have same : c.feed start = (c.advance n).feed start :=
    Cursor.feed_of_next (Cursor.next_of_silent (together.rest.trans left) read) start
  have alike : Alike DecodeError.Same (fun w' s' => InStep w'.progress s')
      (w.step r.position .other) (.ok s) := together.inStep
  refine together.goesOn next (c.advance n) start (together.rest_advance n) ?_ alike ?_
  · exact fun _ other => by cases other
  · unfold elementsFrom
    rw [same]
    rfl

theorem Together.goesOn_piece {piece : Piece} (together : Together document w r c s start)
    (next : r.next = .ok (some (e, r.advance n)))
    (stepped : w.step r.position e = .ok (w.collect (Walker.readPieceAt r.position piece)))
    (left : r.rest = b :: rest)
    (read : readConstruct (b :: rest) = .ok (.token (.piece piece), n))
    (clean : ∀ tag, e = .start tag → ∀ b ∈ tag.name, isWideSpace b = false) :
    GoesOn document w r := by
  have feed := Cursor.feed_of_token (together.rest.trans left) read start
  have alike : Alike DecodeError.Same (fun w' s' => InStep w'.progress s') (w.step r.position e)
      (.ok (ElementReader.collector.data s piece)) := by
    rw [stepped]
    show InStep _ _
    rw [← Walker.data_progress]
    exact together.inStep.data r.position piece
  refine together.goesOn next (c.advance n) (c.advance n).position
    (together.rest_advance n) clean alike ?_
  unfold elementsFrom
  rw [feed]
  rfl

/-- Where the tag of an empty element keeps the decoders in step, or stops both, so does its end. -/
theorem Together.goesOn_empty {tag : Tag} {name attributes : Bytes}
    (together : Together document w r c s start) (left : r.rest = b :: rest)
    (scanned : Scan.ofBytes (b :: rest) = .event (.empty tag) n)
    (read : readConstruct (b :: rest) = .ok (.token (.start name attributes true), n))
    (opened : Alike DecodeError.Same (fun w' s' => InStep w'.progress s') (w.start tag r.position)
      (ElementReader.collector.enter s ⟨start, name, attributes⟩)) :
    GoesOn document w r := by
  have next : r.next = .ok (some (.empty tag, r.advance n)) :=
    EventReader.next_of_event left scanned
  have both : Alike DecodeError.Same (fun w' s' => InStep w'.progress s')
      (w.step r.position (.empty tag))
      ((ElementReader.collector.enter s ⟨start, name, attributes⟩).bind
        ElementReader.collector.leave) := by
    refine opened.bind fun w' s' inStep => Alike.of_map ?_
    rw [← Walker.leave_progress]
    exact inStep.leave
  refine together.goesOn next (c.advance n) (c.advance n).position
    (together.rest_advance n) ?_ both ?_
  · exact fun _ other => by cases other
  · have feed := Cursor.feed_of_token (together.rest.trans left) read start
    unfold elementsFrom
    rw [feed]
    refine (Collector.graph_run s (.enter (StartTag.mk start name attributes)) _).trans ?_
    show (ElementReader.collector.enter s ⟨start, name, attributes⟩).bind _ = _
    cases ElementReader.collector.enter s ⟨start, name, attributes⟩ with
    | error e => rfl
    | ok s' => exact Collector.graph_run s' .leave _

/-- A start tag opens an element in both decoders; an empty element closes at once. -/
theorem Together.goesOn_start {isEmpty : Bool} {tag : Tag}
    (together : Together document w r c s start) (left : r.rest = b :: rest)
    (scanned : Scan.ofBytes (b :: rest) = .event (.ofTag isEmpty tag) n)
    (read : readConstruct (b :: rest) =
      .ok (.token (.start tag.name (tag.content.drop tag.nameLength) isEmpty), n))
    (clean : ∀ b ∈ tag.name, isWideSpace b = false)
    (same : ∀ kind, r.openNames.length = 1 → Walker.kindOf? tag.name = some kind →
      tag.SameKey kind) :
    GoesOn document w r := by
  have begins (one : w.progress.depth = 1) :=
    begin_cases r.position start fun kind => same kind (together.depth.symm.trans one)
  have opened : Alike DecodeError.Same (fun w' s' => InStep w'.progress s')
      (w.start tag r.position) (ElementReader.collector.enter s (tokenTag start tag)) := by
    refine Alike.of_map ?_
    rw [← Walker.enter_progress]
    exact together.inStep.enter (fun _ _ => rfl) begins
  cases isEmpty with
  | false =>
    have next : r.next = .ok (some (.start tag,
        { r.advance n with openNames := tag.name :: r.openNames })) :=
      EventReader.next_of_event left scanned
    refine together.goesOn next (c.advance n) (c.advance n).position
      (together.rest_advance n) ?_ opened ?_
    · intro tag' same
      cases same
      exact clean
    · have feed := Cursor.feed_of_token (together.rest.trans left) read start
      unfold elementsFrom
      rw [feed]
      exact Collector.graph_run s (.enter (tokenTag start tag)) _
  | true => exact together.goesOn_empty left scanned read opened

/-- An empty element that neither decoder looks for is passed over by both. -/
theorem Together.goesOn_passed {tag : Tag} (together : Together document w r c s start)
    (left : r.rest = b :: rest) (scanned : Scan.ofBytes (b :: rest) = .event (.empty tag) n)
    (read : readConstruct (b :: rest) =
      .ok (.token (.start tag.shortName (tag.content.drop tag.shortName.length) true), n))
    (fed : formFeed ∈ tag.name) (unsought : ¬ IsSought r.openNames.length tag.shortName) :
    GoesOn document w r := by
  have depth : w.progress.depth = r.openNames.length := together.depth
  have unsought' := not_sought_of_formFeed fed r.openNames.length
  rw [← depth] at unsought unsought'
  have named (two : w.progress.depth = 2) (member : Pending) :
      member.childField? tag.name = member.childField? tag.shortName := by
    rw [two] at unsought unsought'
    rw [childField?_of_not_sought unsought', childField?_of_not_sought unsought]
  have begins (one : w.progress.depth = 1) :
      Walker.collector.begin? (r.position, tag) = none ∧
        ElementReader.collector.begin?
          ⟨start, tag.shortName, tag.content.drop tag.shortName.length⟩ = none := by
    rw [one] at unsought unsought'
    rw [begin?_eq]
    exact ⟨congrArg (Option.map _) (kindOf?_of_not_sought unsought'),
      congrArg (Option.map _) (kindOf?_of_not_sought unsought)⟩
  refine together.goesOn_empty left scanned read (Alike.of_map ?_)
  rw [← Walker.enter_progress]
  exact together.inStep.enter named fun one => .inl (begins one)

/-- The reader of elements stops at an end tag that does not bear the innermost name. -/
theorem elementsFrom_mismatch {name : Bytes} (left : c.rest = b :: rest)
    (read : readConstruct (b :: rest) = .ok (.token (.finish name), n)) {openNames : List Bytes}
    (differ : openNames.head? ≠ some name) :
    ∃ fault, elementsFrom openNames start c s = .error (.malformed start fault) := by
  have feed := Cursor.feed_of_token left read start
  unfold elementsFrom
  rw [feed]
  cases openNames with
  | nil => exact ⟨.unmatchedTag name, rfl⟩
  | cons expected others =>
    have nested' (rest : Feed (Nat × Token)) :
        nested (expected :: others) (.item (start, .finish name) rest) =
          .broken (.malformed start (.mismatchedTags expected name)) :=
      if_neg fun same => differ (congrArg some (eq_of_beq same))
    rw [nested']
    exact ⟨.mismatchedTags expected name, rfl⟩

/-- The reader of events stops there as well. -/
theorem next_mismatch {name : Bytes} (left : r.rest = b :: rest)
    (scanned : Scan.ofBytes (b :: rest) = .event (.finish name) n)
    (differ : r.openNames.head? ≠ some name) : ∃ fault, r.next = .error (.malformed fault) := by
  have next := EventReader.next_of_event left scanned
  have sameNames : (r.advance n).openNames = r.openNames := rfl
  unfold EventReader.track at next
  rw [sameNames] at next
  cases names : r.openNames with
  | nil =>
    rw [names] at next
    exact ⟨_, next⟩
  | cons expected others =>
    rw [names] at next differ
    dsimp only at next
    rw [if_neg fun same => differ (congrArg some (eq_of_beq same))] at next
    exact ⟨_, next⟩

/-- An end tag closes the innermost element in both decoders, or matches it in neither. -/
theorem Together.goesOn_finish {name name' : Bytes}
    (together : Together document w r c s start) (left : r.rest = b :: rest)
    (scanned : Scan.ofBytes (b :: rest) = .event (.finish name) n)
    (read : readConstruct (b :: rest) = .ok (.token (.finish name'), n))
    (same : r.openNames.head? = some name ↔ r.openNames.head? = some name') :
    GoesOn document w r := by
  by_cases bears : r.openNames.head? = some name
  · obtain ⟨others, names⟩ := List.head?_eq_some_iff.1 bears
    have bears' : name = name' := Option.some.inj (bears.symm.trans (same.1 bears))
    have next := EventReader.next_of_event left scanned
    have sameNames : (r.advance n).openNames = name :: others := names
    unfold EventReader.track at next
    rw [sameNames] at next
    dsimp only at next
    rw [if_pos (beq_self_eq_true name)] at next
    have closed : Alike DecodeError.Same (fun w' s' => InStep w'.progress s')
        (w.step r.position (.finish name)) (ElementReader.collector.leave s) := by
      refine Alike.of_map ?_
      show Alike _ _ (w.finish.map Walker.progress) _
      rw [← Walker.leave_progress]
      exact together.inStep.leave
    refine together.goesOn next (c.advance n) (c.advance n).position
      (together.rest_advance n) ?_ closed ?_
    · exact fun _ other => by cases other
    · have feed := Cursor.feed_of_token (together.rest.trans left) read start
      have nested' (rest : Feed (Nat × Token)) :
          nested (name :: others) (.item (start, .finish name') rest) =
            .item .leave (nested others rest) := if_pos (beq_iff_eq.2 bears')
      unfold elementsFrom
      rw [feed, names, nested']
      exact Collector.graph_run s .leave _
  · obtain ⟨_, next⟩ := next_mismatch left scanned bears
    obtain ⟨_, run⟩ := elementsFrom_mismatch (together.rest.trans left) read (mt same.2 bears)
    exact together.ends next run ⟨rfl, rfl⟩

/-- Where both readings find the same, the decoders go on together or end alike. -/
theorem Together.goesOn_of_corresponds (together : Together document w r c s start)
    (left : r.rest = b :: rest) (corresponds : Corresponds r.openNames (b :: rest)) :
    GoesOn document w r := by
  have place : c.rest = b :: rest := together.rest.trans left
  cases corresponds with
  | silent scanned read => exact together.goesOn_silent left scanned read
  | @text raw n scanned read =>
    have next : r.next = .ok (some (.text raw, r.advance n)) :=
      EventReader.next_of_event left scanned
    refine together.goesOn_piece next rfl left read ?_
    exact fun _ other => by cases other
  | tail scanned read =>
    have next := EventReader.next_of_tail together.failure left scanned
    refine together.goesOn_piece next rfl left read ?_
    exact fun _ other => by cases other
  | @verbatim raw n scanned read =>
    have next : r.next = .ok (some (.verbatim raw, r.advance n)) :=
      EventReader.next_of_event left scanned
    refine together.goesOn_piece next rfl left read ?_
    exact fun _ other => by cases other
  | start scanned read clean same =>
    exact together.goesOn_start left scanned read clean same
  | passed scanned read fed unsought => exact together.goesOn_passed left scanned read fed unsought
  | finish scanned read same => exact together.goesOn_finish left scanned read same
  | unclosed scanned read =>
    have next := EventReader.next_of_fault together.failure left scanned
    have run : elementsFrom r.openNames start c s = .error (.truncated s.depth) := by
      unfold elementsFrom
      rw [Cursor.feed_of_unclosed place read start]
      rfl
    exact together.ends next run ⟨rfl, rfl⟩
  | unknown scanned read =>
    have next := EventReader.next_of_fault together.failure left scanned
    have run : elementsFrom r.openNames start c s =
        .error (.malformed c.position .unknownDeclaration) := by
      unfold elementsFrom
      rw [Cursor.feed_of_unknown place read start]
      rfl
    exact together.ends next run ⟨rfl, rfl⟩

end Steps

/-- The decoders are together at the beginning of a document. -/
theorem together_start (document : Bytes) :
    Together document {} (.ofSource (.ofBytes document)) (ElementReader.ofBytes document).cursor {}
      (ElementReader.ofBytes document).cursor.position := by
  have first : (Source.ofBytes document).first = document := List.take_length
  have reader : EventReader.ofSource (.ofBytes document) =
      { rest := (ElementReader.ofBytes document).cursor.rest } := by
    unfold EventReader.ofSource ElementReader.ofBytes
    rw [first]
    split <;> rfl
  have fresh : (ElementReader.ofBytes document).openNames = [] := by
    unfold ElementReader.ofBytes
    split <;> rfl
  have found := Streaming.decode_eq_run document
  rw [ElementReader.feed, fresh] at found
  have inStep : InStep (Walker.progress {}) {} :=
    ⟨rfl, rfl, rfl, .nothing, fun _ => ⟨rfl, rfl⟩⟩
  rw [reader]
  exact ⟨rfl, rfl, rfl, List.forall_mem_nil _, inStep, found.symm⟩

section Documents

variable {document : Bytes} {w : Walker} {r : EventReader}

/-- The walker finds in a document what it finds from any state on that it comes to. -/
theorem Walker.Reaches.found (reached : Walker.Reaches document w r) :
    (w.follow r.feed).graph =
      (Walker.follow {} (EventReader.ofSource (.ofBytes document)).feed).graph := by
  induction reached with
  | start => rfl
  | @step w w' r r' e _ _ next stepped ih =>
    rw [← ih, Walker.follow_event next, stepped]
    rfl

/-- Up to the first place where the readings part, the decoders are together. -/
theorem Walker.Reaches.together (reached : Walker.Reaches document w r) :
    ∃ c s start, Together document w r c s start := by
  induction reached with
  | start => exact ⟨_, _, _, together_start document⟩
  | @step w w' r r' e _ unparted next stepped ih =>
    obtain ⟨c, s, start, together⟩ := ih
    cases left : r.rest with
    | nil => cases (EventReader.next_of_nil together.failure left).symm.trans next
    | cons b rest =>
      have clean (name : Bytes) (innermost : r.openNames.head? = some name) :=
        together.clean name (List.mem_of_head? innermost)
      rw [left] at unparted
      have corresponds := (corresponds_or_parting b rest clean).resolve_right
        (not_exists.2 unparted)
      rcases together.goesOn_of_corresponds left corresponds with ⟨-, ends⟩ | goes
      · exact absurd stepped (ends e r' w' next)
      · obtain ⟨e₁, r₁, w₁, c', s', start', next₁, stepped₁, together'⟩ := goes
        cases next.symm.trans next₁
        cases stepped.symm.trans stepped₁
        exact ⟨c', s', start', together'⟩

/-- From every place that the walker comes to it finds what the other decoder finds in the whole
document, or it comes to a place where the readings part. -/
theorem Walker.Reaches.same_or_parting (reached : Walker.Reaches document w r) :
    SameOutcome (w.follow r.feed).graph (Streaming.decode document) ∨
      ∃ w r cause, Walker.Reaches document w r ∧ Parting r.openNames cause r.rest := by
  induction length : r.rest.length using Nat.strongRecOn generalizing w r with
  | ind count ih =>
  obtain ⟨c, s, start, together⟩ := reached.together
  cases left : r.rest with
  | nil =>
    have next := EventReader.next_of_nil together.failure left
    have feed := Cursor.feed_of_nil (together.rest.trans left) start
    have found := together.found
    unfold elementsFrom at found
    rw [feed] at found
    rw [Walker.follow_end next, ← found]
    exact .inl together.inStep.result
  | cons b rest =>
    have clean (name : Bytes) (innermost : r.openNames.head? = some name) :=
      together.clean name (List.mem_of_head? innermost)
    rcases corresponds_or_parting b rest clean with corresponds | ⟨cause, parting⟩
    · rcases together.goesOn_of_corresponds left corresponds with ⟨same, -⟩ | goes
      · exact .inl same
      · obtain ⟨e, r', w', -, -, -, next, stepped, -⟩ := goes
        have unparted (cause : PartingCause) : ¬ Parting r.openNames cause r.rest :=
          fun parting => (left ▸ parting).not_corresponds clean corresponds
        have shorter := EventReader.next_length next
        have goesOn := Walker.follow_event next w
        rw [stepped] at goesOn
        rw [goesOn]
        exact ih _ (length ▸ shorter) (reached.step unparted next stepped) rfl
    · exact .inr ⟨w, r, cause, reached, left ▸ parting⟩

end Documents

end GraphScribe
