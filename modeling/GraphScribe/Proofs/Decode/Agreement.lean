import GraphScribe.Decode.Decoder
import GraphScribe.Proofs.Decode.Keys
import GraphScribe.Proofs.Decode.Likeness
import GraphScribe.Proofs.Decode.Lockstep

/-!
# Agreement of the decoders

The two decoders are meant to be interchangeable: for every document the same graph, or errors of
one kind and place. `Decoder.differ_iff_parting` says how far they are: they give the same for every
document unless the walker, before any error, comes to one of the places in `Parting`, and what it
finds there tells.
-/

namespace GraphScribe

open Markup

section Documents

variable {document : Bytes} {w : Walker} {r : EventReader}

/-! ## Where the readings part -/

/-- The outcome is an error of a kind. -/
def FailsWith {α : Type} (kind : DecodeErrorKind) (outcome : Except DecodeError α) : Prop :=
  ∃ e, outcome = .error e ∧ e.kind = kind

/-- The start tag that events find, and whether its element is empty. -/
def Markup.Scan.startTag? : Scan → Option (Tag × Bool)
  | .event (.start tag) _ => some (tag, false)
  | .event (.empty tag) _ => some (tag, true)
  | _ => none

theorem startTag?_ofTag (isEmpty : Bool) (tag : Tag) (n : Nat) :
    (Scan.event (.ofTag isEmpty tag) n).startTag? = some (tag, isEmpty) := by
  cases isEmpty <;> rfl

/-- What stops the reader of elements at a tag that it takes for the tag of a member, if anything
does: a fault in the attribute list, or what an element without content lacks. -/
def Markup.Tag.memberFault? (tag : Tag) (isEmpty : Bool) : Option DecodeError :=
  match Walker.kindOf? tag.shortName,
    Attribute.readAll (tag.content.drop tag.shortName.length), isEmpty with
  | some _, .error fault, _ => some (.malformed 0 (.attribute fault))
  | some _, .ok attributes, true =>
    match Element.meaning ⟨tag.shortName, 0, attributes, []⟩ with
    | .error e => some e
    | .ok _ => none
  | _, _, _ => none

/-- What the walker finds from a parting place on differs from `other`, the outcome of the other
decoder. Where a declaration is none, the two always fail in different ways. At most causes one of
them stops with a certain error, and the other need not. Where they take up a member whose keys do
not mean the same, they find one graph never, but may both fail. Where an element bears two names,
the tag does not tell (`Decoder.name_undecided`): it depends on the end tags, and on whether
something else stands in for what only one of them finds. -/
def PartingCause.Tells (cause : PartingCause) (w : Walker) (r : EventReader)
    (other : Except DecodeError Graph) : Prop :=
  match cause with
  | .verbatim | .comment | .declaration => True
  | .blank | .unnamed => ¬ FailsWith .malformedMarkup other
  | .instruction => ¬ FailsWith .truncatedStream other
  | .quote =>
    match Scan.ofBytes r.rest with
    | .event (.finish bytes) _ =>
      -- at most one of them finds the innermost name
      if r.openNames.head? = some bytes then ¬ FailsWith .malformedMarkup (w.follow r.feed).graph
      else ¬ FailsWith .malformedMarkup other
    | _ => ¬ FailsWith .truncatedStream other
  | .value =>
    match (Scan.ofBytes r.rest).startTag? with
    | some (tag, _) =>
      -- at most one of them finds a fault in the attribute list
      match EventAttribute.readAll tag.content tag.nameLength,
          Attribute.readAll (tag.content.drop tag.nameLength) with
      | .error _, _ => ¬ FailsWith .malformedMarkup other
      | .ok _, .error _ => ¬ FailsWith .malformedMarkup (w.follow r.feed).graph
      | .ok _, .ok _ => ¬ BothFail (w.follow r.feed).graph other
    | none => False
  | .name =>
    match (Scan.ofBytes r.rest).startTag? with
    | some (tag, isEmpty) =>
      -- only the other decoder may take the tag for that of a member, and stop there
      match r.openNames.length, tag.memberFault? isEmpty with
      | 1, some e => ¬ SameOutcome (w.follow r.feed).graph (.error e)
      | _, _ => ¬ SameOutcome (w.follow r.feed).graph other
    | none => False

/-- An error that concerns no field is told by its kind. -/
theorem sameOutcome_error_iff {α : Type} {e : DecodeError}
    (general : e.kind = .malformedMarkup ∨ e.kind = .truncatedStream)
    (other : Except DecodeError α) : SameOutcome (.error e) other ↔ FailsWith e.kind other := by
  have placeless (e : DecodeError) (general : e.kind = .malformedMarkup ∨ e.kind = .truncatedStream) :
      e.location? = none := by
    cases e with
    | truncated depth => rfl
    | malformed position fault => rfl
    | _ => simp [DecodeError.kind] at general
  constructor
  · intro same
    cases other with
    | error e' => exact ⟨e', rfl, same.1.symm⟩
    | ok a => exact same.elim
  · rintro ⟨e', rfl, kind⟩
    exact ⟨kind.symm, (placeless e general).trans (placeless e' (kind ▸ general)).symm⟩

/-- What is found where nothing is left is a text without bytes, so anything else has a first byte. -/
theorem exists_of_scanned {bytes : Bytes} (found : Scan.ofBytes bytes ≠ .tail []) :
    ∃ b rest, bytes = b :: rest := by
  cases bytes with
  | nil => exact absurd rfl found
  | cons b rest => exact ⟨b, rest, rfl⟩

theorem exists_of_read {bytes : Bytes}
    (found : readConstruct bytes ≠ .ok (.token (.piece (.text [])), 0)) :
    ∃ b rest, bytes = b :: rest := by
  cases bytes with
  | nil => exact absurd rfl found
  | cons b rest => exact ⟨b, rest, rfl⟩

/-- The walker stops at a fault. -/
theorem follow_of_fault {fault : EventFault} (failure : r.failure = none)
    (scanned : Scan.ofBytes r.rest = .ended fault ∨ Scan.ofBytes r.rest = .fault fault) :
    (w.follow r.feed).graph = .error (w.stopError r.position (EventReader.stopOf fault)) := by
  obtain ⟨b, rest, left⟩ := exists_of_scanned (by
    rcases scanned with scanned | scanned <;> rw [scanned] <;> nofun)
  rw [left] at scanned
  exact Walker.follow_stop (EventReader.next_of_fault failure left scanned) w

/-- The walker stops at an end tag that does not bear the innermost name. -/
theorem follow_of_mismatch {name : Bytes} {n : Nat} (differ : r.openNames.head? ≠ some name)
    (scanned : Scan.ofBytes r.rest = .event (.finish name) n) :
    ∃ fault, (w.follow r.feed).graph = .error (.malformed r.position fault) := by
  obtain ⟨b, rest, left⟩ := exists_of_scanned (by rw [scanned]; nofun)
  rw [left] at scanned
  obtain ⟨fault, next⟩ := next_mismatch left scanned differ
  exact ⟨fault, Walker.follow_stop next w⟩

/-- The other decoder stops where its reading of an end tag does not bear the innermost name. -/
theorem Together.decode_mismatch {c : Cursor} {s : Progress Element (Bytes × RawText)}
    {start : Nat} {name : Bytes} {n : Nat} (together : Together document w r c s start)
    (differ : r.openNames.head? ≠ some name)
    (read : readConstruct r.rest = .ok (.token (.finish name), n)) :
    ∃ fault, Streaming.decode document = .error (.malformed start fault) := by
  obtain ⟨b, rest, left⟩ := exists_of_read (by rw [read]; nofun)
  rw [left] at read
  rw [← together.found]
  exact elementsFrom_mismatch (together.rest.trans left) read differ

/-! ### Start tags -/

section StartTags

variable {isEmpty : Bool} {tag : Tag} {n : Nat} {kind : ElementKind}

/-- The walker goes on from a start tag with its content, or with its end. -/
theorem Walker.follow_tag (scanned : Scan.ofBytes r.rest = .event (.ofTag isEmpty tag) n)
    (w : Walker) :
    ∃ feed, (w.follow r.feed).graph =
      (w.start tag r.position).bind fun w' => (collector.run w'.progress feed).graph := by
  obtain ⟨b, rest, left⟩ := exists_of_scanned (by rw [scanned]; cases isEmpty <;> nofun)
  rw [left] at scanned
  cases isEmpty with
  | false =>
    obtain ⟨r', next⟩ : ∃ r', r.next = .ok (some (.start tag, r')) :=
      ⟨_, EventReader.next_of_event left scanned⟩
    refine ⟨r'.feed.eventSignals, (Walker.follow_event next w).trans ?_⟩
    exact congrArg (w.start tag r.position).bind (funext fun w' =>
      congrArg Decoded.graph (follow_eq_run r'.feed w'))
  | true =>
    have next : r.next = .ok (some (.empty tag, r.advance n)) :=
      EventReader.next_of_event left scanned
    refine ⟨.item .leave (r.advance n).feed.eventSignals, (Walker.follow_event next w).trans ?_⟩
    show ((w.start tag r.position).bind Walker.finish).bind _ = _
    cases w.start tag r.position with
    | error e => rfl
    | ok w' =>
      refine Eq.trans ?_ (Collector.graph_run w'.progress .leave _).symm
      show _ = (collector.leave w'.progress).bind _
      rw [leave_progress]
      show w'.finish.bind _ = (w'.finish.map progress).bind _
      cases w'.finish with
      | error e => rfl
      | ok w'' => exact congrArg Decoded.graph (follow_eq_run _ w'')

/-- The walker stops at the tag of a member with a fault in its attribute list. -/
theorem follow_of_attributes {fault : EventAttributeFault} (one : w.depth = 1)
    (named : Walker.kindOf? tag.name = some kind)
    (faulty : EventAttribute.readAll tag.content tag.nameLength = .error fault)
    (scanned : Scan.ofBytes r.rest = .event (.ofTag isEmpty tag) n) :
    (w.follow r.feed).graph = .error (.malformed r.position (.eventAttribute fault)) := by
  have opened : w.start tag r.position =
      .error (.malformed r.position (.eventAttribute fault)) := by
    simp only [Walker.start, one, named, Walker.openElement_eq, faulty, Except.map]
  obtain ⟨feed, found⟩ := Walker.follow_tag scanned w
  rw [found, opened]
  rfl

variable {c : Cursor} {s : Progress Element (Bytes × RawText)} {start : Nat}
  {name attributes : Bytes}

/-- The reader of elements goes on from a start tag with its content, or with its end. -/
theorem Together.decode_tag (together : Together document w r c s start)
    (read : readConstruct r.rest = .ok (.token (.start name attributes isEmpty), n)) :
    ∃ feed rest, (isEmpty = true → feed = .item .leave rest) ∧
      Streaming.decode document =
        (ElementReader.collector.enter s ⟨start, name, attributes⟩).bind fun s' =>
          (ElementReader.collector.run s' feed).graph := by
  obtain ⟨b, rest, left⟩ := exists_of_read (by rw [read]; nofun)
  rw [left] at read
  have feed := Cursor.feed_of_token (together.rest.trans left) read start
  have found := together.found
  unfold elementsFrom at found
  rw [feed] at found
  refine ⟨_, nested r.openNames ((c.advance n).feed (c.advance n).position), ?_,
    found.symm.trans (Collector.graph_run s (.enter (StartTag.mk start name attributes)) _)⟩
  intro empty
  rw [if_pos empty]

/-- What the reader of elements makes of the tag of a member. -/
theorem Together.enter_member (together : Together document w r c s start)
    (one : r.openNames.length = 1) (named : Walker.kindOf? name = some kind)
    (attributes : Bytes) :
    ElementReader.collector.enter s ⟨start, name, attributes⟩ =
      match Attribute.readAll attributes with
      | .error fault => .error (.malformed start (.attribute fault))
      | .ok found => .ok { s with depth := 2, pending := some ⟨name, start, found, []⟩ } := by
  have member : s.depth = 1 := together.inStep.depth.symm.trans (together.depth.trans one)
  have begun : ElementReader.collector.begin? ⟨start, name, attributes⟩ =
      some ((ElementReader.dialect.attributes ⟨start, name, attributes⟩).map fun found =>
        ⟨name, start, found, []⟩) :=
    (begin?_eq ⟨start, name, attributes⟩).trans (congrArg (Option.map _) named)
  refine (Collector.enter_member member begun).trans ?_
  show (((Attribute.readAll attributes).mapError _).map _).map _ = _
  cases Attribute.readAll attributes <;> rfl

/-- The reader of elements stops at the tag of a member if its reading of the list finds a fault. -/
theorem Together.decode_attributes {fault : AttributeFault}
    (together : Together document w r c s start) (one : r.openNames.length = 1)
    (named : Walker.kindOf? name = some kind)
    (faulty : Attribute.readAll attributes = .error fault)
    (read : readConstruct r.rest = .ok (.token (.start name attributes isEmpty), n)) :
    Streaming.decode document = .error (.malformed start (.attribute fault)) := by
  obtain ⟨feed, -, -, decoded⟩ := together.decode_tag read
  rw [decoded, together.enter_member one named, faulty]
  rfl

/-- It stops there as well if an element without content lacks something. -/
theorem Together.decode_lacking {found : List Attribute} {e : DecodeError}
    (together : Together document w r c s start) (one : r.openNames.length = 1)
    (named : Walker.kindOf? name = some kind)
    (readable : Attribute.readAll attributes = .ok found)
    (lacks : Element.meaning ⟨name, start, found, []⟩ = .error e)
    (read : readConstruct r.rest = .ok (.token (.start name attributes true), n)) :
    Streaming.decode document = .error e := by
  obtain ⟨feed, rest, ends, decoded⟩ := together.decode_tag read
  have stops : ElementReader.collector.leave
      { s with depth := 2, pending := some ⟨name, start, found, []⟩ } = .error e := by
    refine (Collector.leave_member rfl rfl).trans ?_
    show (Element.meaning _).map _ = _
    rw [lacks]
    rfl
  rw [decoded, together.enter_member one named, readable, ends rfl]
  refine (Collector.graph_run _ .leave rest).trans ?_
  rw [Collector.step, stops]
  rfl

/-- What stops the reader of elements at a tag that it takes for the tag of a member. -/
theorem Together.decode_memberFault {e : DecodeError} (together : Together document w r c s start)
    (one : r.openNames.length = 1) (faulty : tag.memberFault? isEmpty = some e)
    (read : readConstruct r.rest = .ok (.token
      (.start tag.shortName (tag.content.drop tag.shortName.length) isEmpty), n)) :
    ∃ e', Streaming.decode document = .error e' ∧ e'.Same e := by
  unfold Tag.memberFault? at faulty
  split at faulty
  · next kind fault named unreadable =>
    cases faulty
    exact ⟨_, together.decode_attributes one named unreadable read, rfl, rfl⟩
  · next kind found named readable =>
    split at faulty
    · next e' lacks =>
      cases faulty
      have asked : tag.shortName ∈ ElementKind.tags := by
        rw [tag_of_kindOf? named]
        cases kind <;> decide
      have alike : (Element.mk tag.shortName 0 found []).Like ⟨tag.shortName, start, found, []⟩ :=
        ⟨asked, rfl, rfl, fun _ _ => rfl⟩
      have same := alike.meaning
      rw [lacks] at same
      cases meant : Element.meaning ⟨tag.shortName, start, found, []⟩ with
      | error e' =>
        rw [meant] at same
        exact ⟨e', together.decode_lacking one named readable meant read, same.1.symm, same.2.symm⟩
      | ok element =>
        rw [meant] at same
        exact same.elim
    · cases faulty
  · cases faulty

/-- Where both take up a member whose keys do not mean the same, they do not find one graph. -/
theorem Together.apart_of_keys {found : List EventAttribute} {others : List Attribute}
    (together : Together document w r c s start) (one : r.openNames.length = 1)
    (named : Walker.kindOf? tag.name = some kind)
    (events : EventAttribute.readAll tag.content tag.nameLength = .ok found)
    (tokens : Attribute.readAll (tag.content.drop tag.nameLength) = .ok others)
    (scanned : Scan.ofBytes r.rest = .event (.ofTag isEmpty tag) n)
    (read : readConstruct r.rest =
      .ok (.token (.start tag.name (tag.content.drop tag.nameLength) isEmpty), n))
    (differ : ¬ tag.SameKey kind) (g g' : Graph) (accepted : (w.follow r.feed).graph = .ok g)
    (accepted' : Streaming.decode document = .ok g') : g ≠ g' := by
  obtain ⟨feed, followed⟩ := Walker.follow_tag scanned w
  obtain ⟨feed', -, -, decoded⟩ := together.decode_tag read
  have opened : w.start tag r.position = .ok
      { w with depth := 2, pending := some (Walker.opened found r.position kind) } := by
    simp only [Walker.start, together.depth.trans one, named, Walker.openElement_eq, events,
      Except.map]
  rw [followed, opened] at accepted
  rw [decoded, together.enter_member one named, tokens] at accepted'
  obtain ⟨p, element, later, ⟨pendingKind, pendingKey⟩, meant, rfl⟩ :=
    Collector.exists_next (C := Walker.collector)
      (Q := fun p => p.kind = kind ∧ p.key = (Walker.opened found r.position kind).key)
      (fun p child kept => ⟨(p.kind_key_setChild child.1 child.2).1.trans kept.1,
        (p.kind_key_setChild child.1 child.2).2.trans kept.2⟩)
      feed (Nat.le_refl 2) rfl ⟨Walker.kind_opened .., rfl⟩ accepted
  obtain ⟨e, element', later', ⟨elementName, elementKey⟩, meant', rfl⟩ :=
    Collector.exists_next (C := ElementReader.collector)
      (Q := fun e => e.name = kind.tag ∧ e.attribute? kind.keyName =
        (Element.mk tag.name start others []).attribute? kind.keyName)
      (fun e child kept => kept) feed' (Nat.le_refl 2) rfl ⟨tag_of_kindOf? named, rfl⟩ accepted'
  obtain ⟨text, resolved, key⟩ := Pending.hasKey_of_meaning meant
  obtain ⟨text', resolved', key'⟩ := Element.hasKey_of_meaning elementName meant'
  have apart : ¬ kind.SameKey text text' := by
    intro same
    refine differ ?_
    unfold Tag.SameKey
    rw [events, tokens]
    refine (@keysMatch_iff found ⟨tag.name, start, others, []⟩ kind r.position).1 ?_
    rw [← Walker.key_opened, ← pendingKey, resolved, ← elementKey, resolved']
    exact same
  have elements : w.elements = s.elements := together.inStep.elements
  show Graph.ofElements (w.elements.reverse ++ _) ≠ Graph.ofElements (s.elements.reverse ++ _)
  rw [elements]
  exact Graph.ofElements_ne apart (pendingKind ▸ key) key' _ _ _

end StartTags

/-- Where a declaration is none, the decoders fail in different ways. -/
theorem Together.differs {c : Cursor} {s : Progress Element (Bytes × RawText)} {start : Nat}
    (together : Together document w r c s start)
    (scanned : Scan.ofBytes r.rest = .ended .unclosed ∨ Scan.ofBytes r.rest = .fault .unclosed)
    (read : readConstruct r.rest = .error .unknownDeclaration) :
    ¬ SameOutcome (w.follow r.feed).graph (Streaming.decode document) := by
  have found := together.found
  unfold elementsFrom at found
  rw [follow_of_fault together.failure scanned]
  obtain ⟨b, rest, left⟩ := exists_of_read (by rw [read]; nofun)
  rw [left] at read
  rw [Cursor.feed_of_unknown (together.rest.trans left) read] at found
  rw [← found]
  intro same
  cases same.1

/-- At a place where the readings part, the walker finds something else than the other decoder in
the whole document just if the cause tells. -/
theorem Walker.Reaches.differs_iff {cause : PartingCause} (reached : Walker.Reaches document w r)
    (parting : Parting r.openNames cause r.rest) :
    ¬ SameOutcome (w.follow r.feed).graph (Streaming.decode document) ↔
      cause.Tells w r (Streaming.decode document) := by
  obtain ⟨c, s, start, together⟩ := reached.together
  cases cause with
  | name =>
    cases parting with
    | @name _ isEmpty tag n scanned read _ _ =>
      unfold PartingCause.Tells
      rw [scanned, startTag?_ofTag]
      dsimp only
      split
      · next e one faulty =>
        obtain ⟨e', found, same⟩ := together.decode_memberFault one faulty read
        have same' : SameOutcome (Streaming.decode document) (.error e) := by
          rw [found]
          exact same
        exact not_congr ⟨fun alike => alike.trans same',
          fun alike => alike.trans (sameOutcome_comm.1 same')⟩
      · exact Iff.rfl
  | value =>
    cases parting with
    | @value _ isEmpty tag n kind scanned read member named _ differ =>
      have tells : PartingCause.value.Tells w r (Streaming.decode document) ↔
          match EventAttribute.readAll tag.content tag.nameLength,
            Attribute.readAll (tag.content.drop tag.nameLength) with
          | .error _, _ => ¬ FailsWith .malformedMarkup (Streaming.decode document)
          | .ok _, .error _ => ¬ FailsWith .malformedMarkup (w.follow r.feed).graph
          | .ok _, .ok _ => ¬ BothFail (w.follow r.feed).graph (Streaming.decode document) := by
        unfold PartingCause.Tells
        rw [scanned, startTag?_ofTag]
      rw [tells]
      cases events : EventAttribute.readAll tag.content tag.nameLength with
      | error fault =>
        rw [follow_of_attributes (together.depth.trans member) named events scanned,
          sameOutcome_error_iff (.inl rfl)]
        rfl
      | ok found =>
        cases tokens : Attribute.readAll (tag.content.drop tag.nameLength) with
        | error fault =>
          rw [together.decode_attributes member named tokens read, sameOutcome_comm,
            sameOutcome_error_iff (.inl rfl)]
          rfl
        | ok others =>
          exact not_congr (sameOutcome_iff_bothFail
            (together.apart_of_keys member named events tokens scanned read differ))
  | quote =>
    obtain ⟨name, n, read, plain, unclosed | ⟨name', n', scanned, held, -⟩⟩ :=
      parting.quote_readings
    · rw [follow_of_fault together.failure (.inl unclosed), sameOutcome_error_iff (.inr rfl)]
      unfold PartingCause.Tells
      rw [unclosed]
      rfl
    · have tells : PartingCause.quote.Tells w r (Streaming.decode document) ↔
          if r.openNames.head? = some name' then
            ¬ FailsWith .malformedMarkup (w.follow r.feed).graph
          else ¬ FailsWith .malformedMarkup (Streaming.decode document) := by
        unfold PartingCause.Tells
        rw [scanned]
      rw [tells]
      by_cases bears : r.openNames.head? = some name'
      · have differ : r.openNames.head? ≠ some name := fun bears' =>
          plain (Option.some.inj (bears'.symm.trans bears) ▸ held)
        obtain ⟨_, found⟩ := together.decode_mismatch differ read
        rw [if_pos bears, found, sameOutcome_comm, sameOutcome_error_iff (.inl rfl)]
        rfl
      · obtain ⟨_, stops⟩ := @follow_of_mismatch w r _ _ bears scanned
        rw [if_neg bears, stops, sameOutcome_error_iff (.inl rfl)]
        rfl
  | blank =>
    have clean (name : Bytes) (innermost : r.openNames.head? = some name) :=
      together.clean name (List.mem_of_head? innermost)
    obtain ⟨name, name', n, innermost, differ, scanned, -⟩ := parting.blank_readings clean
    have bears : r.openNames.head? ≠ some name' := fun bears' =>
      differ (Option.some.inj (innermost.symm.trans bears'))
    obtain ⟨_, stops⟩ := @follow_of_mismatch w r _ _ bears scanned
    rw [stops, sameOutcome_error_iff (.inl rfl)]
    rfl
  | verbatim =>
    obtain ⟨scanned, read⟩ := parting.verbatim_readings
    exact iff_of_true (together.differs scanned read) trivial
  | comment =>
    obtain ⟨scanned, read⟩ := parting.comment_readings
    exact iff_of_true (together.differs scanned read) trivial
  | declaration =>
    obtain ⟨scanned, read⟩ := parting.declaration_readings
    exact iff_of_true (together.differs scanned read) trivial
  | unnamed =>
    have scanned := parting.unnamed_readings.1
    rw [follow_of_fault together.failure (.inr scanned), sameOutcome_error_iff (.inl rfl)]
    rfl
  | instruction =>
    have scanned := parting.instruction_readings.1
    rw [follow_of_fault together.failure (.inr scanned), sameOutcome_error_iff (.inr rfl)]
    rfl

end Documents

namespace Decoder

/-- The graph that the walker finds in a source, or its error. -/
theorem decode_token (buffers : BufferPool) (source : Source) :
    ((Decoder.mk .token buffers).decode source).1 =
      (Walker.follow {} (EventReader.ofSource source).feed).graph :=
  congrArg Decoded.graph (Walker.run_eq_follow {} _ _)

/-- The graph that the walker finds in a document, or its error. -/
theorem decodeBytes_token (buffers : BufferPool) (document : Bytes) :
    ((Decoder.mk .token buffers).decodeBytes document).1 =
      (Walker.follow {} (EventReader.ofSource (.ofBytes document)).feed).graph :=
  decode_token buffers (.ofBytes document)

/-! ## Documents that the decoders read differently -/

theorem reaches_start {document : Bytes} (unmarked : byteOrderMark.isPrefixOf document = false) :
    Walker.Reaches document {} { rest := document } := by
  have first : (Source.ofBytes document).first = document := List.take_length
  have reader : EventReader.ofSource (.ofBytes document) = { rest := document } := by
    unfold EventReader.ofSource
    rw [first, unmarked]
    rfl
  exact reader ▸ .start

/-- Inside the root element of a document. -/
theorem reaches_inside (rest : Bytes) :
    Walker.Reaches (Bytes.ofAscii "<g>" ++ rest) { depth := 1, sawRoot := true }
      { rest := rest, position := 3, openNames := [Bytes.ofAscii "g"] } := by
  have corresponds : Corresponds [] (opener :: 0x67 :: closer :: rest) := by
    have scanned : Scan.ofBytes (opener :: 0x67 :: closer :: rest) =
        .event (.ofTag false (.ofContent (Bytes.ofAscii "g"))) 3 := rfl
    have ends : tagEnd (opener :: 0x67 :: closer :: rest) = some 2 := tagEndFrom_eq _ 1
    have read : readConstruct (opener :: 0x67 :: closer :: rest) =
        .ok (.token (.start (Bytes.ofAscii "g") [] false), 3) := by
      show readStartTag _ = _
      rw [readStartTag, ends]
      rfl
    refine .start scanned read (fun b held => ?_) fun _ one => ?_
    · exact List.mem_singleton.1 held ▸ rfl
    · cases one
  have unparted (cause : PartingCause) : ¬ Parting [] cause (Bytes.ofAscii "<g>" ++ rest) :=
    fun parting => parting.not_corresponds (fun _ none => by cases none) corresponds
  have next : EventReader.next { rest := Bytes.ofAscii "<g>" ++ rest } =
      .ok (some (.start (.ofContent (Bytes.ofAscii "g")),
        { rest := rest, position := 3, openNames := [Bytes.ofAscii "g"] })) := by
    have scanned : Scan.ofBytes (opener :: 0x67 :: closer :: rest) =
        .event (.start (.ofContent (Bytes.ofAscii "g"))) 3 := rfl
    exact EventReader.next_of_event rfl scanned
  exact (reaches_start rfl).step unparted next rfl

/-- For every cause a document that is read differently because of it. -/
def partedDocument : PartingCause → Bytes
  | .name => Bytes.ofAscii "<g\x0C></g>"
  | .value => Bytes.ofAscii "<g>" ++ Bytes.ofAscii "<node \x0Cid='1'/></g>"
  | .quote => Bytes.ofAscii "</\">"
  | .blank => Bytes.ofAscii "<g>" ++ Bytes.ofAscii "</g\x0C>"
  | .verbatim => Bytes.ofAscii "<![x]]><g/>"
  | .comment => Bytes.ofAscii "<!-x--><g/>"
  | .declaration => Bytes.ofAscii "<!Dx><g/>"
  | .unnamed => Bytes.ofAscii "<!DOCTYPE><g/>"
  | .instruction => Bytes.ofAscii "<?>?><g/>"

theorem partedDocument_reaches (cause : PartingCause) :
    ∃ w r, Walker.Reaches (partedDocument cause) w r ∧ Parting r.openNames cause r.rest := by
  cases cause with
  | name =>
    have scanned : Scan.ofBytes (partedDocument .name) =
        .event (.ofTag false (.ofContent (Bytes.ofAscii "g\x0C"))) 4 := rfl
    have read : readConstruct (partedDocument .name) =
        .ok (.token (.start (Bytes.ofAscii "g") [formFeed] false), 4) := by
      decide +kernel
    refine ⟨_, _, reaches_start rfl, .name scanned read (by decide) fun empty => ?_⟩
    exact absurd empty Bool.false_ne_true
  | value =>
    have scanned : Scan.ofBytes (Bytes.ofAscii "<node \x0Cid='1'/></g>") =
        .event (.ofTag true (.ofContent (Bytes.ofAscii "node \x0Cid='1'"))) 15 := rfl
    have read : readConstruct (Bytes.ofAscii "<node \x0Cid='1'/></g>") =
        .ok (.token (.start (Bytes.ofAscii "node") (Bytes.ofAscii " \x0Cid='1'") true), 15) := by
      decide +kernel
    refine ⟨_, _, reaches_inside _, @Parting.value _ _ _ _ _ .node scanned read rfl rfl ?_ ?_⟩
    · exact .here (.inr (.inl (by decide)))
    · unfold Tag.SameKey
      decide +kernel
  | quote => exact ⟨_, _, reaches_start rfl, @Parting.quote _ [0x22] [] (by decide) (by decide)⟩
  | blank =>
    refine ⟨_, _, reaches_inside _,
      @Parting.blank _ (Bytes.ofAscii "g") [formFeed] [] rfl (by decide) rfl ?_ ?_⟩
    · exact fun b held => List.mem_singleton.1 held ▸ rfl
    · exact .inl (List.mem_singleton.2 rfl)
  | verbatim =>
    exact ⟨_, _, reaches_start rfl, @Parting.verbatim _ (Bytes.ofAscii "x]]><g/>") rfl⟩
  | comment =>
    exact ⟨_, _, reaches_start rfl, @Parting.comment _ (Bytes.ofAscii "x--><g/>") rfl⟩
  | declaration =>
    exact ⟨_, _, reaches_start rfl,
      @Parting.declaration _ 0x44 (Bytes.ofAscii "x><g/>") (.inl rfl) rfl⟩
  | unnamed =>
    exact ⟨_, _, reaches_start rfl,
      @Parting.unnamed _ (Bytes.ofAscii "DOCTYPE><g/>") 7 rfl (by decide +kernel) rfl⟩
  | instruction =>
    exact ⟨_, _, reaches_start rfl, @Parting.instruction _ (Bytes.ofAscii "?><g/>") 5 rfl⟩

theorem partedDocument_differs (cause : PartingCause) (buffers buffers' : BufferPool) :
    ¬ SameOutcome ((Decoder.mk .token buffers).decodeBytes (partedDocument cause)).1
      ((Decoder.mk .streaming buffers').decodeBytes (partedDocument cause)).1 := by
  rw [decodeBytes_token]
  show ¬ SameOutcome _ (Streaming.decode (partedDocument cause))
  cases cause <;> decide +kernel

/-- The tag of an element with two names does not tell whether the decoders differ: they come to one
tag in one state in two documents, and differ for one of them only. At an end tag with the longer
name both close the element, and at one with the shorter name only the reader of elements does. -/
theorem name_undecided : ∃ (document document' : Bytes) (w : Walker) (r r' : EventReader),
    (Walker.Reaches document w r ∧ Walker.Reaches document' w r' ∧ r'.openNames = r.openNames ∧
      Scan.ofBytes r'.rest = Scan.ofBytes r.rest ∧
      readConstruct r'.rest = readConstruct r.rest) ∧
    (Parting r.openNames .name r.rest ∧ Parting r'.openNames .name r'.rest) ∧
    ∀ buffers buffers' : BufferPool,
      SameOutcome ((Decoder.mk .token buffers).decodeBytes document).1
        ((Decoder.mk .streaming buffers').decodeBytes document).1 ∧
      ¬ SameOutcome ((Decoder.mk .token buffers).decodeBytes document').1
        ((Decoder.mk .streaming buffers').decodeBytes document').1 := by
  have scanned (rest : Bytes) : Scan.ofBytes (Bytes.ofAscii "<g\x0C>" ++ rest) =
      .event (.ofTag false (.ofContent (Bytes.ofAscii "g\x0C"))) 4 := rfl
  have read (rest : Bytes) : readConstruct (Bytes.ofAscii "<g\x0C>" ++ rest) =
      .ok (.token (.start (Bytes.ofAscii "g") [formFeed] false), 4) := by
    have ends : tagEnd (Bytes.ofAscii "<g\x0C>" ++ rest) = some 3 := tagEndFrom_eq _ 1
    show readStartTag _ = _
    rw [readStartTag, ends]
    rfl
  have parting (rest : Bytes) : Parting [] .name (Bytes.ofAscii "<g\x0C>" ++ rest) :=
    .name (scanned rest) (read rest) (by decide) fun empty => absurd empty Bool.false_ne_true
  refine ⟨Bytes.ofAscii "<g\x0C>" ++ Bytes.ofAscii "</g\x0C>", partedDocument .name, _, _, _,
    ⟨reaches_start rfl, reaches_start rfl, rfl, ?_, ?_⟩, ⟨parting _, parting (Bytes.ofAscii "</g>")⟩,
    fun buffers buffers' => ⟨?_, partedDocument_differs .name buffers buffers'⟩⟩
  · exact (scanned (Bytes.ofAscii "</g>")).trans (scanned _).symm
  · exact (read (Bytes.ofAscii "</g>")).trans (read _).symm
  · rw [decodeBytes_token]
    show SameOutcome _ (Streaming.decode _)
    decide +kernel

/-- The decoders are not interchangeable: a form feed is white space to one of them only. -/
theorem not_interchangeable :
    ¬ ∀ (document : Bytes) (buffers buffers' : BufferPool),
      SameOutcome ((Decoder.mk .token buffers).decodeBytes document).1
        ((Decoder.mk .streaming buffers').decodeBytes document).1 :=
  fun same => partedDocument_differs .value {} {} (same (partedDocument .value) {} {})

/-- The decoders give different graphs, or errors of different kinds or at different places, for
just those documents in which the walker comes to a place where the readings part for a cause that
tells. By `partedDocument_reaches` and `partedDocument_differs` none of the causes is idle. -/
theorem differ_iff_parting (document : Bytes) (buffers buffers' : BufferPool) :
    ¬ SameOutcome ((Decoder.mk .token buffers).decodeBytes document).1
        ((Decoder.mk .streaming buffers').decodeBytes document).1 ↔
      ∃ w r cause, Walker.Reaches document w r ∧ Parting r.openNames cause r.rest ∧
        cause.Tells w r (Streaming.decode document) := by
  rw [decodeBytes_token]
  constructor
  · intro differ
    obtain ⟨w, r, cause, reached, parting⟩ :=
      Walker.Reaches.start.same_or_parting.resolve_left differ
    refine ⟨w, r, cause, reached, parting, (reached.differs_iff parting).1 ?_⟩
    rw [reached.found]
    exact differ
  · rintro ⟨w, r, cause, reached, parting, tells⟩
    have differ := (reached.differs_iff parting).2 tells
    rwa [reached.found] at differ

end Decoder

end GraphScribe
