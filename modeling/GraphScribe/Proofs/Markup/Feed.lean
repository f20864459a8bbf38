import GraphScribe.Decode.Error
import GraphScribe.Decode.ElementReader
import GraphScribe.Markup.Event
import GraphScribe.Proofs.Markup.Forest

/-!
# Feeds

A feed is what a reader hands on piece by piece: items, and at last the way in which it ends.
`Cursor.feed` is the feed of a document's tokens; `nested` checks on the way that end tags match
and turns tokens into signals. `EventReader.feed` is the feed of a document's events, whose reader
checks the tags itself.

`nested_of_spells`: tokens that spell an outline turn into the signals of that outline.
-/

namespace GraphScribe.Markup

/-- Items, one after the other, and then an end. -/
inductive Feed (α : Type) where
  | finished
  /-- The document ends inside a construct. -/
  | unclosed
  | broken (e : DecodeError)
  | item (a : α) (rest : Feed α)

/-- Some items before a feed. -/
def Feed.prepend {α : Type} (items : List α) (rest : Feed α) : Feed α :=
  items.foldr .item rest

theorem Feed.prepend_append {α : Type} (first second : List α) (rest : Feed α) :
    Feed.prepend (first ++ second) rest = Feed.prepend first (Feed.prepend second rest) :=
  List.foldr_append

/-! ## Tokens -/

/-- The tokens from a place on, each with the position at which it was looked for. The first one is
looked for from `start` on. -/
def Cursor.feed (start : Nat) (c : Cursor) : Feed (Nat × Token) :=
  match h : c.next with
  | (.error .unclosed, _) => .unclosed
  | (.error .unknownDeclaration, c') => .broken (.malformed c'.position .unknownDeclaration)
  | (.ok none, _) => .finished
  | (.ok (some token), c') =>
    have := Cursor.next_length h
    .item (start, token) (feed c'.position c')
termination_by c.rest.length

/-- The tokens from a place to the end of a document, or the fault that stops reading. -/
def Cursor.tokens (c : Cursor) : Except ConstructFault (List (Nat × Token)) :=
  match h : c.next with
  | (.error fault, _) => .error fault
  | (.ok none, _) => .ok []
  | (.ok (some token), c') =>
    have := Cursor.next_length h
    c'.tokens.map ((c.position, token) :: ·)
termination_by c.rest.length

theorem Cursor.feed_of_tokens {c : Cursor} {tokens : List (Nat × Token)}
    (read : c.tokens = .ok tokens) : c.feed c.position = Feed.prepend tokens .finished := by
  fun_induction Cursor.tokens c generalizing tokens with
  | case1 => cases read
  | case2 c c' next =>
    cases read
    rw [Cursor.feed]
    split <;> simp_all [Feed.prepend]
  | case3 c token c' next _ ih =>
    cases later : c'.tokens with
    | error fault => rw [later] at read; cases read
    | ok rest =>
      rw [later] at read
      cases read
      rw [Cursor.feed]
      split <;> simp_all [Feed.prepend]

/-! ## One construct -/

namespace Cursor

variable {c : Cursor} {b : UInt8} {rest : Bytes} {n : Nat}

theorem next_of_nil (left : c.rest = []) : c.next = (.ok none, c) := by
  obtain ⟨_, position⟩ := c
  cases left
  rw [next]

theorem next_of_fault {fault : ConstructFault} (left : c.rest = b :: rest)
    (read : readConstruct (b :: rest) = .error fault) : c.next = (.error fault, c) := by
  obtain ⟨_, position⟩ := c
  cases left
  rw [next]
  split <;> simp_all

theorem next_of_token {token : Token} (left : c.rest = b :: rest)
    (read : readConstruct (b :: rest) = .ok (.token token, n)) :
    c.next = (.ok (some token), c.advance n) := by
  obtain ⟨_, position⟩ := c
  cases left
  rw [next]
  split <;> simp_all

theorem next_of_silent (left : c.rest = b :: rest)
    (read : readConstruct (b :: rest) = .ok (.silent, n)) : c.next = (c.advance n).next := by
  obtain ⟨_, position⟩ := c
  cases left
  rw [next]
  split <;> simp_all

theorem feed_of_next {c c' : Cursor} (same : c.next = c'.next) (start : Nat) :
    c.feed start = c'.feed start := by
  rw [feed, feed]
  split <;> split <;> simp_all

theorem feed_of_nil (left : c.rest = []) (start : Nat) : c.feed start = .finished := by
  have read := next_of_nil left
  rw [feed]
  split <;> simp_all

theorem feed_of_unclosed (left : c.rest = b :: rest)
    (read : readConstruct (b :: rest) = .error .unclosed) (start : Nat) :
    c.feed start = .unclosed := by
  have fault := next_of_fault left read
  rw [feed]
  split <;> simp_all

theorem feed_of_unknown (left : c.rest = b :: rest)
    (read : readConstruct (b :: rest) = .error .unknownDeclaration) (start : Nat) :
    c.feed start = .broken (.malformed c.position .unknownDeclaration) := by
  have fault := next_of_fault left read
  rw [feed]
  split <;> simp_all

theorem feed_of_token {token : Token} (left : c.rest = b :: rest)
    (read : readConstruct (b :: rest) = .ok (.token token, n)) (start : Nat) :
    c.feed start = .item (start, token) ((c.advance n).feed (c.advance n).position) := by
  have next := next_of_token left read
  rw [feed]
  split <;> simp_all

end Cursor

/-! ## Tags that match -/

/-- A start tag as the reader of tokens splits it. -/
structure StartTag where
  position : Nat
  name : Bytes
  attributes : Bytes
deriving DecidableEq, Repr

/-- The signals of a feed of tokens, where the elements `openNames` are open (the innermost
first). An end tag that does not match ends the feed. -/
def nested (openNames : List Bytes) : Feed (Nat × Token) → Feed (Signal StartTag Piece)
  | .finished => .finished
  | .unclosed => .unclosed
  | .broken e => .broken e
  | .item (position, .start name attributes isEmpty) rest =>
    .item (.enter ⟨position, name, attributes⟩)
      (if isEmpty then .item .leave (nested openNames rest) else nested (name :: openNames) rest)
  | .item (_, .piece piece) rest => .item (.data piece) (nested openNames rest)
  | .item (position, .finish name) rest =>
    match openNames with
    | [] => .broken (.malformed position (.unmatchedTag name))
    | expected :: others =>
      if expected == name then .item .leave (nested others rest)
      else .broken (.malformed position (.mismatchedTags expected name))

/-! ## Well-nested tokens -/

/-- Tokens that spell a forest: every start tag is empty or has its end tag. -/
inductive Forest.Spells : Forest StartTag Piece → List (Nat × Token) → Prop where
  | done : Spells .done []
  | data {position : Nat} {piece : Piece} {rest : Forest StartTag Piece}
      {tokens : List (Nat × Token)} :
    Spells rest tokens → Spells (.data piece rest) ((position, .piece piece) :: tokens)
  | empty {position : Nat} {name attributes : Bytes} {rest : Forest StartTag Piece}
      {tokens : List (Nat × Token)} :
    Spells rest tokens →
    Spells (.element ⟨position, name, attributes⟩ .done rest)
      ((position, .start name attributes true) :: tokens)
  | element {position finish : Nat} {name attributes : Bytes}
      {content rest : Forest StartTag Piece} {inside after : List (Nat × Token)} :
    Spells content inside → Spells rest after →
    Spells (.element ⟨position, name, attributes⟩ content rest)
      ((position, .start name attributes false) :: (inside ++ (finish, .finish name) :: after))

/-- Tokens up to the last start tag without an end tag. -/
inductive SpellsOpen : List (Forest StartTag Piece × StartTag) → List (Nat × Token) → Prop where
  | nil : SpellsOpen [] []
  | cons {before : Forest StartTag Piece} {position : Nat} {name attributes : Bytes}
      {openings : List (Forest StartTag Piece × StartTag)} {first later : List (Nat × Token)} :
    before.Spells first → SpellsOpen openings later →
    SpellsOpen ((before, ⟨position, name, attributes⟩) :: openings)
      (first ++ (position, .start name attributes false) :: later)

/-- Tokens that spell an outline. -/
def Outline.Spells (o : Outline StartTag Piece) (tokens : List (Nat × Token)) : Prop :=
  ∃ first last, SpellsOpen o.openings first ∧ o.inner.Spells last ∧ tokens = first ++ last

/-- The names of the open elements of an outline, the innermost first. -/
def Outline.openNames (o : Outline StartTag Piece) : List Bytes :=
  (o.openings.map (·.2.name)).reverse

theorem Forest.Spells.nested {f : Forest StartTag Piece} {tokens : List (Nat × Token)}
    (spelled : f.Spells tokens) : ∀ (openNames : List Bytes) (rest : Feed (Nat × Token)),
      Markup.nested openNames (Feed.prepend tokens rest) =
        Feed.prepend f.signals (Markup.nested openNames rest) := by
  induction spelled with
  | done => exact fun _ _ => rfl
  | data _ ih => exact fun openNames rest => congrArg (Feed.item _) (ih openNames rest)
  | @empty position name attributes others tokens _ ih =>
    intro openNames rest
    have later := congrArg (Feed.item Signal.leave) (ih openNames rest)
    exact congrArg (Feed.item (Signal.enter ⟨position, name, attributes⟩)) later
  | @element position finish name attributes content others inside after _ _ ihContent ihRest =>
    intro openNames rest
    rw [Forest.signals, ← List.cons_append, ← List.cons_append, Feed.prepend_append,
      Feed.prepend_append]
    refine congrArg (Feed.item _) ((ihContent (name :: openNames) _).trans ?_)
    refine congrArg (Feed.prepend content.signals) ?_
    refine Eq.trans ?_ (congrArg (Feed.item .leave) (ihRest openNames rest))
    exact if_pos (beq_self_eq_true name)

theorem SpellsOpen.nested {openings : List (Forest StartTag Piece × StartTag)}
    {tokens : List (Nat × Token)} (spelled : SpellsOpen openings tokens) :
    ∀ (openNames : List Bytes) (rest : Feed (Nat × Token)),
      Markup.nested openNames (Feed.prepend tokens rest) =
        Feed.prepend (Outline.openSignals openings)
          (Markup.nested ((openings.map (·.2.name)).reverse ++ openNames) rest) := by
  induction spelled with
  | nil => exact fun _ _ => rfl
  | @cons before position name attributes openings first later before_spelled _ ih =>
    intro openNames rest
    rw [Feed.prepend_append, before_spelled.nested, Outline.openSignals_cons, Feed.prepend_append,
      List.map_cons, List.reverse_cons, List.append_assoc, List.singleton_append]
    exact congrArg (Feed.prepend before.signals) (congrArg (Feed.item _) (ih (name :: openNames) rest))

/-- Tokens that spell an outline turn into its signals, and leave its elements open. -/
theorem nested_of_spells {o : Outline StartTag Piece} {tokens : List (Nat × Token)}
    (spelled : o.Spells tokens) (rest : Feed (Nat × Token)) :
    nested [] (Feed.prepend tokens rest) =
      Feed.prepend o.signals (nested o.openNames rest) := by
  obtain ⟨first, last, openSpelled, innerSpelled, rfl⟩ := spelled
  rw [Feed.prepend_append, openSpelled.nested, innerSpelled.nested, Outline.signals,
    Feed.prepend_append, List.append_nil]
  rfl

/-! ## Every sequence of tokens -/

theorem Forest.Spells.append {f g : Forest StartTag Piece} {first second : List (Nat × Token)}
    (left : f.Spells first) (right : g.Spells second) :
    (f.append g).Spells (first ++ second) := by
  induction left with
  | done => exact right
  | data _ ih => exact .data ih
  | empty _ ih => exact .empty ih
  | element content _ _ ih =>
    rw [List.cons_append, List.append_assoc, List.cons_append]
    exact .element content ih

theorem SpellsOpen.append {openings more : List (Forest StartTag Piece × StartTag)}
    {first second : List (Nat × Token)} (left : SpellsOpen openings first)
    (right : SpellsOpen more second) : SpellsOpen (openings ++ more) (first ++ second) := by
  induction left with
  | nil => exact right
  | cons before _ ih =>
    rw [List.append_assoc, List.cons_append]
    exact .cons before ih

theorem SpellsOpen.of_concat {openings : List (Forest StartTag Piece × StartTag)}
    {before : Forest StartTag Piece} {tag : StartTag} {tokens : List (Nat × Token)}
    (spelled : SpellsOpen (openings ++ [(before, tag)]) tokens) :
    ∃ first last, SpellsOpen openings first ∧ before.Spells last ∧
      tokens = first ++ last ++ [(tag.position, .start tag.name tag.attributes false)] := by
  induction openings generalizing tokens with
  | nil =>
    cases spelled with
    | @cons _ position name attributes _ first later content rest =>
      cases rest
      exact ⟨[], first, .nil, content, rfl⟩
  | cons opening others ih =>
    cases spelled with
    | @cons _ position name attributes _ first later content rest =>
      obtain ⟨inside, last, opened, spells, rfl⟩ := ih rest
      refine ⟨_, last, .cons content opened, spells, ?_⟩
      simp only [List.append_assoc, List.cons_append]

namespace Outline

variable {o : Outline StartTag Piece} {tokens : List (Nat × Token)}

theorem spells_start : (start : Outline StartTag Piece).Spells [] :=
  ⟨[], [], .nil, .done, rfl⟩

theorem Spells.extend {content : Forest StartTag Piece} {more : List (Nat × Token)}
    (spelled : o.Spells tokens) (inside : content.Spells more) :
    (o.extend content).Spells (tokens ++ more) := by
  obtain ⟨first, last, opened, inner, rfl⟩ := spelled
  exact ⟨first, last ++ more, opened, inner.append inside, List.append_assoc first last more⟩

theorem Spells.enter (spelled : o.Spells tokens) (tag : StartTag) :
    (o.enter tag).Spells
      (tokens ++ [(tag.position, .start tag.name tag.attributes false)]) := by
  obtain ⟨first, last, opened, inner, rfl⟩ := spelled
  refine ⟨_, [], opened.append (.cons inner .nil), .done, ?_⟩
  rw [List.append_nil, List.append_assoc]

theorem Spells.leave {name : Bytes} {others : List Bytes} (spelled : o.Spells tokens)
    (innermost : o.openNames = name :: others) (position : Nat) :
    ∃ o' : Outline StartTag Piece, o'.Spells (tokens ++ [(position, .finish name)]) := by
  obtain ⟨openings, inner⟩ := o
  obtain ⟨first, last, opened, inside, rfl⟩ := spelled
  rcases openings.eq_nil_or_concat with rfl | ⟨outer, ⟨before, tag⟩, rfl⟩
  · cases innermost
  · rw [List.concat_eq_append] at innermost opened
    obtain ⟨outside, around, outer_spelled, spells, rfl⟩ := opened.of_concat
    have same : tag.name = name := by
      rw [openNames, List.map_append, List.reverse_append] at innermost
      exact (List.cons.inj innermost).1
    subst same
    have closed : (Forest.element tag inner .done).Spells
        ((tag.position, .start tag.name tag.attributes false) ::
          (last ++ [(position, .finish tag.name)])) := .element inside .done
    refine ⟨⟨outer, before.append (.element tag inner .done)⟩, outside, _, outer_spelled,
      spells.append closed, ?_⟩
    simp only [List.append_assoc, List.cons_append, List.nil_append]

/-- An end tag that does not bear the name of the innermost open element of an outline. -/
def Mismatches (o : Outline StartTag Piece) (name : Bytes) : Prop :=
  o.openNames.head? ≠ some name

/-- Tokens either spell an outline, or they do up to an end tag that does not match. -/
theorem spells_or_mismatches (tokens : List (Nat × Token)) :
    (∃ o : Outline StartTag Piece, o.Spells tokens) ∨
      ∃ (o : Outline StartTag Piece) (before after : List (Nat × Token)) (position : Nat)
        (name : Bytes), o.Spells before ∧ o.Mismatches name ∧
          tokens = before ++ (position, .finish name) :: after := by
  suffices general : ∀ (tokens before : List (Nat × Token)) (o : Outline StartTag Piece),
      o.Spells before → (∃ o' : Outline StartTag Piece, o'.Spells (before ++ tokens)) ∨
        ∃ (o' : Outline StartTag Piece) (first after : List (Nat × Token)) (position : Nat)
          (name : Bytes), o'.Spells first ∧ o'.Mismatches name ∧
            before ++ tokens = first ++ (position, .finish name) :: after from
    general tokens [] start spells_start
  intro tokens
  induction tokens with
  | nil => exact fun before o spelled => .inl ⟨o, (List.append_nil before).symm ▸ spelled⟩
  | cons placed rest ih =>
    intro before o spelled
    rw [List.append_cons]
    obtain ⟨position, token⟩ := placed
    cases token with
    | start name attributes isEmpty =>
      cases isEmpty with
      | false => exact ih _ _ (spelled.enter ⟨position, name, attributes⟩)
      | true => exact ih _ _ (spelled.extend (.empty .done))
    | piece piece => exact ih _ _ (spelled.extend (.data .done))
    | finish name =>
      by_cases matching : o.openNames.head? = some name
      · obtain ⟨others, innermost⟩ := List.head?_eq_some_iff.1 matching
        obtain ⟨closed, closedSpelled⟩ := spelled.leave innermost position
        exact ih _ closed closedSpelled
      · exact .inr ⟨o, before, rest, position, name, spelled, matching,
          List.append_assoc before _ rest⟩

end Outline

/-! ## Events -/

namespace EventReader

variable {r : EventReader} {e : Event} {b : UInt8} {rest : Bytes}

theorem next_of_nil (failure : r.failure = none) (left : r.rest = []) : r.next = .ok none := by
  unfold next
  rw [left, failure]

theorem next_of_event {n : Nat} (left : r.rest = b :: rest)
    (scanned : Scan.ofBytes (b :: rest) = .event e n) :
    r.next = (track (r.advance n) e).map fun r' => some (e, r') := by
  unfold next
  rw [left]
  dsimp only
  rw [scanned]

theorem next_of_tail {raw : Bytes} (failure : r.failure = none) (left : r.rest = b :: rest)
    (scanned : Scan.ofBytes (b :: rest) = .tail raw) :
    r.next = .ok (some (.text raw, r.advance (rest.length + 1))) := by
  unfold next
  rw [left]
  dsimp only
  rw [scanned, failure]

theorem next_of_fault {fault : EventFault} (failure : r.failure = none) (left : r.rest = b :: rest)
    (scanned : Scan.ofBytes (b :: rest) = .ended fault ∨ Scan.ofBytes (b :: rest) = .fault fault) :
    r.next = .error (stopOf fault) := by
  unfold next
  rw [left]
  dsimp only
  rcases scanned with ended | faulty
  · rw [ended, failure]
  · rw [faulty]

end EventReader

/-- What ends a feed of events in place of the next one. -/
def EventStop.feed {α : Type} (position : Nat) : EventStop → Feed α
  | .unreadable failure => .broken (.unreadable failure)
  | .unclosed => .unclosed
  | .malformed fault => .broken (.malformed position fault)

/-- The events that are left to a reader, each with its position. -/
def EventReader.feed (r : EventReader) : Feed (Nat × Event) :=
  match h : r.next with
  | .error stop => stop.feed r.position
  | .ok none => .finished
  | .ok (some (e, r')) =>
    have := EventReader.next_length h
    .item (r.position, e) r'.feed
termination_by r.rest.length

/-- What an event does to the open elements. An empty element closes at once, and what is neither a
tag nor character data does nothing. -/
def Event.signals (position : Nat) : Event → List (Signal (Nat × Tag) (Nat × Piece))
  | .start tag => [.enter (position, tag)]
  | .empty tag => [.enter (position, tag), .leave]
  | .finish _ => [.leave]
  | .text raw => [.data (position, .text raw)]
  | .verbatim raw => [.data (position, .verbatim raw)]
  | .other => []

/-- The signals of some events. -/
def eventSignals (events : List (Nat × Event)) : List (Signal (Nat × Tag) (Nat × Piece)) :=
  events.flatMap fun (position, e) => e.signals position

/-- The signals of a feed of events, whose reader has checked that end tags match. -/
def Feed.eventSignals : Feed (Nat × Event) → Feed (Signal (Nat × Tag) (Nat × Piece))
  | .finished => .finished
  | .unclosed => .unclosed
  | .broken e => .broken e
  | .item (position, e) rest => Feed.prepend (e.signals position) rest.eventSignals

theorem Feed.eventSignals_prepend (events : List (Nat × Event)) (rest : Feed (Nat × Event)) :
    (Feed.prepend events rest).eventSignals =
      Feed.prepend (Markup.eventSignals events) rest.eventSignals := by
  induction events with
  | nil => rfl
  | cons event others ih =>
    have first := Feed.prepend_append (event.2.signals event.1) (Markup.eventSignals others)
      rest.eventSignals
    exact (congrArg (Feed.prepend (event.2.signals event.1)) ih).trans first.symm

end GraphScribe.Markup
