import GraphScribe.Proofs.Decode.Calls
import GraphScribe.Proofs.Decode.Places
import GraphScribe.Proofs.Markup.Guarded

/-!
# Readers by offsets

A reader of elements that keeps no more of its place than an offset, and takes the bytes from there
on off the document each time. Its loops go on from offsets that they have computed; it is stopped
by an offset out of range, and it need not end.

* `Reached`: the readers that reading a document can lead to, also inside a call.
* `LiesIn`: the cursor of a reader is a place in the document.
* `nextToken_moves`: a token is looked for from its place on, and found behind it.
* `scanning_bounded`: no offset is out of range, and every loop ends with what the reader of elements
  gives.
-/

namespace GraphScribe

open Markup

namespace ElementReader

/-! ## Loops by offsets -/

/-- The reader with its cursor at an offset of the document. -/
def moveTo (document : Bytes) (r : ElementReader) (offset : Nat) : ElementReader :=
  { r with cursor := .within document offset }

/-- Reads a construct, which may be the next token. -/
def tokenRound (document : Bytes) (r : ElementReader) :
    Guarded ((Except DecodeError (Option Token) × ElementReader) ⊕ ElementReader) := do
  let rest ← sliceFrom document r.cursor.position
  if rest.isEmpty then return .inl (.ok none, r)
  match ← constructAt rest with
  | .error .unclosed => return .inl (.error (.truncated r.depth), r)
  | .error .unknownDeclaration =>
    return .inl (.error (.malformed r.cursor.position .unknownDeclaration), r)
  | .ok (.token token, n) =>
    return .inl (.ok (some token), r.moveTo document (r.cursor.position + n))
  | .ok (.silent, n) => return .inr (r.moveTo document (r.cursor.position + n))

/-- The next token. -/
def nextTokenAt (document : Bytes) (r : ElementReader) :
    Guarded (Except DecodeError (Option Token) × ElementReader) :=
  Guarded.loop (tokenRound document) r

/-- Reads a token in the element that is open at depth `base`, whose content so far is `content`. -/
def contentRound (document : Bytes) (base : Nat) :
    Content × ElementReader →
      Guarded ((Except DecodeError (List (Bytes × RawText)) × ElementReader) ⊕
        Content × ElementReader)
  | (content, r) => do
    match ← nextTokenAt document r with
    | (.error e, r') => return .inl (.error e, r')
    | (.ok none, r') => return .inl (.error (.truncated r'.depth), r')
    | (.ok (some (.start name _ isEmpty)), r') =>
      let content :=
        if r'.depth = base then content.start name isEmpty r.cursor.position else content
      return .inr (content, r'.enter name isEmpty)
    | (.ok (some (.finish name)), r') =>
      match r'.close name r.cursor.position with
      | (.error e, r'') => return .inl (.error e, r'')
      | (.ok (), r'') =>
        if r''.depth < base then return .inl (.ok content.children, r'')
        return .inr (if r''.depth = base then content.finish else content, r'')
    | (.ok (some (.piece piece)), r') =>
      return .inr (if r'.depth = base + 1 then content.add piece else content, r')

/-- Reads up to the end of the element that is open at depth `base`, whose content so far is
`content`. -/
def readContentAt (document : Bytes) (base : Nat) (content : Content) (r : ElementReader) :
    Guarded (Except DecodeError (List (Bytes × RawText)) × ElementReader) :=
  Guarded.loop (contentRound document base) (content, r)

/-- Reads a token, and the element that it begins if that has one of the names and is directly in a
top-level element. -/
def elementRound (document : Bytes) (names : List Bytes) (r : ElementReader) :
    Guarded ((Answer × ElementReader) ⊕ ElementReader) := do
  match ← nextTokenAt document r with
  | (.error e, r') => return .inl (.error e, r')
  | (.ok none, r') =>
    return .inl (if r'.openNames.isEmpty then .ok none else .error (.truncated r'.depth), r')
  | (.ok (some (.start name attributes isEmpty)), r') =>
    if r'.depth == 1 && names.contains name then
      match ← attributesAt [] attributes with
      | .error fault => return .inl (.error (.malformed r.cursor.position (.attribute fault)), r')
      | .ok values =>
        if isEmpty then return .inl (.ok (some ⟨name, r.cursor.position, values, []⟩), r')
        else
          let pushed := r'.push name
          let (content, r'') ← readContentAt document pushed.depth {} pushed
          return .inl (content.map fun children =>
            some ⟨name, r.cursor.position, values, children⟩, r'')
    else return .inr (r'.noteStart.enter name isEmpty)
  | (.ok (some (.finish name)), r') =>
    match r'.close name r.cursor.position with
    | (.error e, r'') => return .inl (.error e, r'')
    | (.ok (), r'') => return .inr r''
  | (.ok (some (.piece _)), r') => return .inr r'

/-- The next element with one of the names directly in a top-level element. -/
def nextAt (document : Bytes) (names : List Bytes) (r : ElementReader) :
    Guarded (Answer × ElementReader) :=
  Guarded.loop (elementRound document names) r

end ElementReader

/-! ## Places in a document -/

/-- A cursor at a place in a document, or at its end. -/
structure Markup.Cursor.LiesIn (document : Bytes) (c : Cursor) : Prop where
  eq_within : c = .within document c.position
  le : c.position ≤ document.length

namespace Markup.Cursor

variable {document : Bytes} {c : Cursor} {b : UInt8} {rest : Bytes} {construct : Construct} {n : Nat}

theorem LiesIn.rest_eq (inside : c.LiesIn document) : c.rest = document.drop c.position :=
  congrArg Cursor.rest inside.eq_within

/-- A construct leads to a later place in the document. -/
theorem LiesIn.advance (inside : c.LiesIn document) (left : c.rest = b :: rest)
    (read : readConstruct (b :: rest) = .ok (construct, n)) : (c.advance n).LiesIn document where
  eq_within := by
    rw [inside.eq_within, within_advance]
    rfl
  le := by
    have short := readConstruct_le (List.cons_ne_nil b rest) read
    rw [← left, inside.rest_eq, List.length_drop] at short
    have le := inside.le
    show c.position + n ≤ document.length
    omega

/-- Looking for a token never goes back, a token is found behind the place where it was looked for,
and there is none at the end of the document only. -/
structure Moves {ε : Type} (document : Bytes) (c : Cursor) (outcome : Except ε (Option Token))
    (c' : Cursor) : Prop where
  liesIn : c'.LiesIn document
  le : c.position ≤ c'.position
  lt : ∀ token, outcome = .ok (some token) → c.position < c'.position
  ended : outcome = .ok none → c'.position = document.length

theorem LiesIn.next (inside : c.LiesIn document) : Moves document c c.next.1 c.next.2 := by
  fun_induction Cursor.next c with
  | case1 position =>
    have rest := inside.rest_eq
    rw [eq_comm, List.drop_eq_nil_iff] at rest
    exact ⟨inside, Nat.le_refl _, by simp, fun _ => Nat.le_antisymm inside.le rest⟩
  | case2 b rest position fault faulty => exact ⟨inside, Nat.le_refl _, by simp, by simp⟩
  | case3 b rest position token n read =>
    have pos := readConstruct_pos read
    exact ⟨inside.advance rfl read, Nat.le_add_right _ n,
      fun _ _ => Nat.lt_add_of_pos_right pos, by simp⟩
  | case4 b rest position n read pos ih =>
    have moves := ih (inside.advance rfl read)
    have before : position ≤ (Cursor.advance ⟨b :: rest, position⟩ n).position :=
      Nat.le_add_right _ n
    exact ⟨moves.liesIn, Nat.le_trans before moves.le,
      fun token found => Nat.lt_of_le_of_lt before (moves.lt token found), moves.ended⟩

end Markup.Cursor

namespace ElementReader

variable {document : Bytes} {r r' r'' : ElementReader} {name : Bytes}

/-- The cursor of a reader is a place in the document. -/
abbrev LiesIn (document : Bytes) (r : ElementReader) : Prop := r.cursor.LiesIn document

theorem liesIn_ofBytes (document : Bytes) : (ofBytes document).LiesIn document := by
  unfold ofBytes
  split
  · next begins => exact ⟨rfl, (List.isPrefixOf_iff_prefix.1 begins).length_le⟩
  · exact ⟨rfl, Nat.zero_le _⟩

theorem LiesIn.nextToken_moves (inside : r.LiesIn document) :
    Cursor.Moves document r.cursor r.nextToken.1 r.nextToken.2.cursor := by
  have moves := Cursor.LiesIn.next inside
  unfold nextToken
  rcases found : r.cursor.next with ⟨(_ | _) | token?, cursor⟩
  all_goals rw [found] at moves
  · exact ⟨moves.liesIn, moves.le, nofun, nofun⟩
  · exact ⟨moves.liesIn, moves.le, nofun, nofun⟩
  · exact ⟨moves.liesIn, moves.le,
      fun token same => moves.lt token (congrArg Except.ok (Except.ok.inj same)),
      fun same => moves.ended (congrArg Except.ok (Except.ok.inj same))⟩

theorem LiesIn.of_nextToken (inside : r.LiesIn document)
    {outcome : Except DecodeError (Option Token)} (read : r.nextToken = (outcome, r')) :
    r'.LiesIn document := by
  have moves := inside.nextToken_moves
  rw [read] at moves
  exact moves.liesIn

theorem LiesIn.enter (inside : r.LiesIn document) (name : Bytes) (isEmpty : Bool) :
    (r.enter name isEmpty).LiesIn document := by
  rw [LiesIn, enter_cursor]
  exact inside

theorem LiesIn.close (inside : r.LiesIn document) (name : Bytes) (position : Nat) :
    (r.close name position).2.LiesIn document := by
  rw [LiesIn, close_cursor]
  exact inside

theorem LiesIn.of_close (inside : r.LiesIn document) {position : Nat}
    {outcome : Except DecodeError Unit} (closed : r.close name position = (outcome, r')) :
    r'.LiesIn document := by
  have kept := inside.close name position
  rwa [closed] at kept

/-! ## Readers that reading leads to -/

/-- The readers that reading a document can lead to: the fresh one, and those after a step of a
call. -/
inductive Reached (document : Bytes) : ElementReader → Prop where
  | start : Reached document (ofBytes document)
  | token {r : ElementReader} : Reached document r → Reached document r.nextToken.2
  | note {r : ElementReader} : Reached document r → Reached document r.noteStart
  | enter {r : ElementReader} (name : Bytes) (isEmpty : Bool) :
    Reached document r → Reached document (r.enter name isEmpty)
  | close {r : ElementReader} (name : Bytes) (position : Nat) :
    Reached document r → Reached document (r.close name position).2

theorem Reached.liesIn (reached : Reached document r) : r.LiesIn document := by
  induction reached with
  | start => exact liesIn_ofBytes document
  | token _ inside => exact inside.nextToken_moves.liesIn
  | note _ inside => exact inside
  | enter name isEmpty _ inside => exact inside.enter name isEmpty
  | close name position _ inside => exact inside.close name position

theorem Reached.of_nextToken (reached : Reached document r)
    {outcome : Except DecodeError (Option Token)} (read : r.nextToken = (outcome, r')) :
    Reached document r' := by
  have after := reached.token
  rwa [read] at after

theorem Reached.of_close (reached : Reached document r) {position : Nat}
    {outcome : Except DecodeError Unit} (closed : r.close name position = (outcome, r')) :
    Reached document r' := by
  have after := reached.close name position
  rwa [closed] at after

theorem Reached.readContent (reached : Reached document r) (base : Nat) (content : Content) :
    Reached document (readContent base content r).2 := by
  fun_induction ElementReader.readContent base content r with
  | case1 content r fault r' read => exact reached.of_nextToken read
  | case2 content r r' read => exact reached.of_nextToken read
  | case3 content r position r' name attributes isEmpty _ _ content' read _ ih =>
    exact ih ((reached.of_nextToken read).enter name isEmpty)
  | case4 content r position r' name _ _ fault r'' closed read =>
    exact (reached.of_nextToken read).of_close closed
  | case5 content r position r' name _ _ r'' closed _ shallow read =>
    exact (reached.of_nextToken read).of_close closed
  | case6 content r position r' name _ _ r'' closed _ shallow content' read _ ih =>
    exact ih ((reached.of_nextToken read).of_close closed)
  | case7 content r r' piece _ read _ ih => exact ih (reached.of_nextToken read)

theorem Reached.next (reached : Reached document r) (names : List Bytes) :
    Reached document (r.next names).2 := by
  fun_induction ElementReader.next names r with
  | case1 r fault r' read => exact reached.of_nextToken read
  | case2 r r' read => exact reached.of_nextToken read
  | case3 r position r' name attributes isEmpty _ taken fault faulty read _ =>
    exact reached.of_nextToken read
  | case4 r position r' name attributes taken values valid _ read _ =>
    exact reached.of_nextToken read
  | case5 r position r' name attributes isEmpty _ taken values valid full pushed content r''
      inside read _ =>
    have whole := ((reached.of_nextToken read).enter name false).readContent pushed.depth {}
    rwa [show r'.enter name false = pushed from rfl, inside] at whole
  | case6 r r' name attributes isEmpty _ passed _ read _ ih =>
    exact ih ((reached.of_nextToken read).note.enter name isEmpty)
  | case7 r position r' name _ _ fault r'' closed read _ =>
    exact (reached.of_nextToken read).of_close closed
  | case8 r position r' name _ _ r'' closed _ read _ ih =>
    exact ih ((reached.of_nextToken read).of_close closed)
  | case9 r r' piece _ read _ ih => exact ih (reached.of_nextToken read)

/-- Any calls, each for the names that are given. -/
theorem Reached.after (reached : Reached document r) (calls : List (List Bytes)) :
    Reached document (r.after calls) := by
  induction calls generalizing r with
  | nil => exact reached
  | cons names calls ih => exact ih (reached.next names)

/-! ## Loops that end -/

theorem nextToken_of_silent {b : UInt8} {rest : Bytes} {n : Nat} (left : r.cursor.rest = b :: rest)
    (read : readConstruct (b :: rest) = .ok (.silent, n)) :
    r.nextToken = { r with cursor := r.cursor.advance n }.nextToken := by
  rw [nextToken, nextToken, Cursor.next_of_silent left read]

theorem LiesIn.moveTo_eq (inside : r.LiesIn document) (n : Nat) :
    r.moveTo document (r.cursor.position + n) = { r with cursor := r.cursor.advance n } := by
  have cursor : Cursor.within document (r.cursor.position + n) = r.cursor.advance n := by
    rw [← Cursor.within_advance, ← inside.eq_within]
  rw [moveTo, cursor]

/-- One round of looking for a token, at a construct. -/
theorem LiesIn.tokenRound_of_construct (inside : r.LiesIn document) {b : UInt8} {rest : Bytes}
    (left : r.cursor.rest = b :: rest) :
    tokenRound document r =
      match readConstruct (b :: rest) with
      | .error .unclosed => pure (.inl (.error (.truncated r.depth), r))
      | .error .unknownDeclaration =>
        pure (.inl (.error (.malformed r.cursor.position .unknownDeclaration), r))
      | .ok (.token token, n) =>
        pure (.inl (.ok (some token), { r with cursor := r.cursor.advance n }))
      | .ok (.silent, n) => pure (.inr { r with cursor := r.cursor.advance n }) := by
  rw [tokenRound, sliceFrom_eq inside.le, pure_bind, ← inside.rest_eq, left]
  simp only [List.isEmpty_cons, Bool.false_eq_true, if_false, constructAt_eq, pure_bind,
    inside.moveTo_eq]

/-- Every round takes a construct, which is not empty, so looking for a token ends. -/
theorem LiesIn.nextTokenAt_eq (inside : r.LiesIn document) :
    nextTokenAt document r = pure r.nextToken := by
  generalize place : r.cursor = c
  fun_induction Cursor.next c generalizing r with
  | case1 position =>
    have left : r.cursor.rest = [] := by rw [place]
    apply Guarded.loop_last
    rw [tokenRound, sliceFrom_eq inside.le, pure_bind, ← inside.rest_eq, left, nextToken,
      Cursor.next_of_nil left]
    rfl
  | case2 b rest position fault faulty =>
    have left : r.cursor.rest = b :: rest := by rw [place]
    apply Guarded.loop_last
    rw [inside.tokenRound_of_construct left, faulty, nextToken, Cursor.next_of_fault left faulty]
    cases fault <;> rfl
  | case3 b rest position token n read =>
    have left : r.cursor.rest = b :: rest := by rw [place]
    apply Guarded.loop_last
    rw [inside.tokenRound_of_construct left, read, nextToken, Cursor.next_of_token left read]
  | case4 b rest position n read pos ih =>
    have left : r.cursor.rest = b :: rest := by rw [place]
    have again : tokenRound document r = pure (.inr { r with cursor := r.cursor.advance n }) := by
      rw [inside.tokenRound_of_construct left, read]
    rw [nextTokenAt, Guarded.loop_again again, nextToken_of_silent left read]
    exact ih (inside.advance left read) (by rw [place])

/-- Every round takes a token, so reading the content of an element ends. -/
theorem LiesIn.readContentAt_eq (inside : r.LiesIn document) (base : Nat) (content : Content) :
    readContentAt document base content r = pure (readContent base content r) := by
  fun_induction ElementReader.readContent base content r with
  | case1 content r fault r' read =>
    apply Guarded.loop_last
    rw [contentRound, inside.nextTokenAt_eq, pure_bind, read]
  | case2 content r r' read =>
    apply Guarded.loop_last
    rw [contentRound, inside.nextTokenAt_eq, pure_bind, read]
  | case3 content r position r' name attributes isEmpty _ _ content' read _ ih =>
    have again : contentRound document base (content, r) =
        pure (.inr (content', r'.enter name isEmpty)) := by
      rw [contentRound, inside.nextTokenAt_eq, pure_bind, read]
      rfl
    rw [readContentAt, Guarded.loop_again again]
    exact ih ((inside.of_nextToken read).enter name isEmpty)
  | case4 content r position r' name _ _ fault r'' closed read =>
    apply Guarded.loop_last
    rw [contentRound, inside.nextTokenAt_eq, pure_bind, read]
    dsimp only
    rw [closed]
  | case5 content r position r' name _ _ r'' closed _ shallow read =>
    apply Guarded.loop_last
    rw [contentRound, inside.nextTokenAt_eq, pure_bind, read]
    dsimp only
    rw [closed]
    exact if_pos shallow
  | case6 content r position r' name _ _ r'' closed _ shallow content' read _ ih =>
    have again : contentRound document base (content, r) = pure (.inr (content', r'')) := by
      rw [contentRound, inside.nextTokenAt_eq, pure_bind, read]
      dsimp only
      rw [closed]
      exact if_neg shallow
    rw [readContentAt, Guarded.loop_again again]
    exact ih ((inside.of_nextToken read).of_close closed)
  | case7 content r r' piece _ read _ ih =>
    have again : contentRound document base (content, r) =
        pure (.inr (if r'.depth = base + 1 then content.add piece else content, r')) := by
      rw [contentRound, inside.nextTokenAt_eq, pure_bind, read]
    rw [readContentAt, Guarded.loop_again again]
    exact ih (inside.of_nextToken read)

/-- Every round takes a token, so looking for an element ends. -/
theorem LiesIn.nextAt_eq (inside : r.LiesIn document) (names : List Bytes) :
    nextAt document names r = pure (r.next names) := by
  have test (depth : Nat) (name : Bytes) :
      (depth == 1 && names.contains name) = true ↔ depth = 1 ∧ name ∈ names := by
    simp
  fun_induction ElementReader.next names r with
  | case1 r fault r' read =>
    apply Guarded.loop_last
    rw [elementRound, inside.nextTokenAt_eq, pure_bind, read]
  | case2 r r' read =>
    apply Guarded.loop_last
    rw [elementRound, inside.nextTokenAt_eq, pure_bind, read]
  | case3 r position r' name attributes isEmpty _ taken fault faulty read _ =>
    apply Guarded.loop_last
    rw [elementRound, inside.nextTokenAt_eq, pure_bind, read]
    dsimp only
    rw [if_pos ((test _ _).2 taken), attributesAt_eq, pure_bind, ← Attribute.readAll, faulty]
  | case4 r position r' name attributes taken values valid _ read _ =>
    apply Guarded.loop_last
    rw [elementRound, inside.nextTokenAt_eq, pure_bind, read]
    dsimp only
    rw [if_pos ((test _ _).2 taken), attributesAt_eq, pure_bind, ← Attribute.readAll, valid]
    rfl
  | case5 r position r' name attributes isEmpty _ taken values valid full pushed content r''
      found read _ =>
    have inside' : r'.LiesIn document := inside.of_nextToken read
    have opened : pushed.LiesIn document := inside'
    apply Guarded.loop_last
    rw [elementRound, inside.nextTokenAt_eq, pure_bind, read]
    dsimp only
    rw [if_pos ((test _ _).2 taken), attributesAt_eq, pure_bind, ← Attribute.readAll, valid]
    dsimp only
    rw [if_neg full, opened.readContentAt_eq, pure_bind, found]
  | case6 r r' name attributes isEmpty _ passed _ read _ ih =>
    have inside' : r'.LiesIn document := inside.of_nextToken read
    have noted : r'.noteStart.LiesIn document := inside'
    have again : elementRound document names r = pure (.inr (r'.noteStart.enter name isEmpty)) := by
      rw [elementRound, inside.nextTokenAt_eq, pure_bind, read]
      exact if_neg (mt (test _ _).1 passed)
    rw [nextAt, Guarded.loop_again again]
    exact ih (noted.enter name isEmpty)
  | case7 r position r' name _ _ fault r'' closed read _ =>
    apply Guarded.loop_last
    rw [elementRound, inside.nextTokenAt_eq, pure_bind, read]
    dsimp only
    rw [closed]
  | case8 r position r' name _ _ r'' closed _ read _ ih =>
    have again : elementRound document names r = pure (.inr r'') := by
      rw [elementRound, inside.nextTokenAt_eq, pure_bind, read]
      dsimp only
      rw [closed]
    rw [nextAt, Guarded.loop_again again]
    exact ih ((inside.of_nextToken read).of_close closed)
  | case9 r r' piece _ read _ ih =>
    have again : elementRound document names r = pure (.inr r') := by
      rw [elementRound, inside.nextTokenAt_eq, pure_bind, read]
    rw [nextAt, Guarded.loop_again again]
    exact ih (inside.of_nextToken read)

/-- Wherever reading a document leads, looking for a token does not go back or behind the end, finds
a token behind its place, and finds none only at the end; and no loop runs for ever, leaves its bytes
or closes a bracket too many. The ends of tags and of declarations are looked for behind their first
bytes, which must be there. -/
theorem scanning_bounded (reached : Reached document r) :
    r.cursor.position ≤ r.nextToken.2.cursor.position ∧
    r.nextToken.2.cursor.position ≤ document.length ∧
    (∀ token, r.nextToken.1 = .ok (some token) →
      r.cursor.position < r.nextToken.2.cursor.position) ∧
    (r.nextToken.1 = .ok none → r.nextToken.2.cursor.position = document.length) ∧
    nextTokenAt document r = pure r.nextToken ∧
    (∀ names, nextAt document names r = pure (r.next names)) ∧
    (∀ base content,
      readContentAt document base content r = pure (readContent base content r)) ∧
    (∀ tag, tagEndAt tag 1 = if tag.length < 1 then throw .slice else pure (tagEnd tag)) ∧
    (∀ declaration, bracketEndAt declaration 1 2 =
      if declaration.length < 2 then throw .slice else pure (declarationEnd declaration)) ∧
    ∀ raw, attributesAt [] raw = pure (Attribute.readAll raw) := by
  have inside := reached.liesIn
  have moves := inside.nextToken_moves
  refine ⟨moves.le, moves.liesIn.le, moves.lt, moves.ended, inside.nextTokenAt_eq,
    inside.nextAt_eq, inside.readContentAt_eq, fun tag => ?_, fun declaration => ?_,
    attributesAt_eq []⟩
  · split
    · next short =>
      apply Guarded.loop_fault
      rw [tagRound, sliceFrom_fault short, Guarded.throw_bind]
    · next long => exact tagEndAt_eq tag (Nat.le_of_not_lt long)
  · split
    · next short =>
      apply Guarded.loop_fault
      rw [bracketRound, sliceFrom_fault short, Guarded.throw_bind]
    · next long => exact bracketEndAt_eq declaration (Nat.le_refl 1) (Nat.le_of_not_lt long)

/-- A document that ends behind a `<`, read up to there by a call that took an element. -/
theorem scanning_bounded_cutShort :
    let document := Bytes.ofAscii "<!DOCTYPE g [<!ELEMENT g ANY>]><g><node id='>'/><"
    let names := [Bytes.ofAscii "node"]
    let r := (ofBytes document).after [names]
    Reached document r ∧ r.cursor.position + 1 = document.length ∧
      nextAt document names r = pure (.error (.truncated 1), r) := by
  intro document names r
  have reached : Reached document r := Reached.start.after [names]
  have answer : r.next names = (.error (.truncated 1), r) := by decide +kernel
  obtain ⟨-, -, -, -, -, call, -⟩ := scanning_bounded reached
  exact ⟨reached, by decide +kernel, (call names).trans (congrArg pure answer)⟩

end ElementReader
end GraphScribe
