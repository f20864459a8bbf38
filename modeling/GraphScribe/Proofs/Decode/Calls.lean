import GraphScribe.Proofs.Decode.StreamingTree

/-!
# Calls of a reader

A reader of elements may be called any number of times, each time with other names, also after an
error and after the end of the document. An error leaves it inside elements that it was reading,
with an element not opened whose attributes are at fault, or closed by a tag of another name; what
an answer says about the reader holds all the same.

* `ElementReader.next_of_error` and the lemmas beside it: one token of a call.
* `ElementReader.readContent_answered`: the content of an element that a call takes.
* `ElementReader.next_answered`: one call.
* `ElementReader.calls_answered`: one call after any others, and any others after it.
-/

namespace GraphScribe

open Markup

/-- Where no token is found, looking again finds the same. -/
theorem Markup.Cursor.next_again {c c' : Cursor} {outcome : Except ConstructFault (Option Token)}
    (read : c.next = (outcome, c')) (stops : ∀ token, outcome ≠ .ok (some token)) :
    c'.next = (outcome, c') := by
  fun_induction Cursor.next c with
  | case1 position =>
    cases read
    exact next_of_nil rfl
  | case2 b rest position fault faulty =>
    cases read
    exact next_of_fault rfl faulty
  | case3 b rest position token =>
    cases read
    exact absurd rfl (stops token)
  | case4 _ _ _ _ _ _ ih => exact ih read

namespace ElementReader

/-- An answer to a call. -/
abbrev Answer := Except DecodeError (Option Element)

variable {r r' r'' : ElementReader} {e : DecodeError} {answer : Answer} {name attributes : Bytes}
  {isEmpty : Bool} {values : List Attribute}

/-! ## One token -/

/-- Looking for a token moves the cursor and leaves the rest as it was. -/
theorem kept_of_nextToken {outcome : Except DecodeError (Option Token)}
    (read : r.nextToken = (outcome, r')) :
    r'.openNames = r.openNames ∧ r'.sawRoot = r.sawRoot := by
  unfold nextToken at read
  rcases found : r.cursor.next with ⟨token?, cursor⟩
  rw [found] at read
  rcases token? with (_ | _) | token? <;> cases read <;> exact ⟨rfl, rfl⟩

theorem nextToken_again {outcome : Except DecodeError (Option Token)}
    (read : r.nextToken = (outcome, r')) (stops : ∀ token, outcome ≠ .ok (some token)) :
    r'.nextToken = (outcome, r') := by
  unfold nextToken at read ⊢
  rcases found : r.cursor.next with ⟨token?, cursor⟩
  rw [found] at read
  have again (stops : ∀ token, token? ≠ .ok (some token)) := Cursor.next_again found stops
  rcases token? with (_ | _) | token?
  · cases read
    dsimp only
    rw [again fun _ => (nomatch ·)]
  · cases read
    dsimp only
    rw [again fun _ => (nomatch ·)]
  · cases read
    dsimp only
    rw [again fun token same => stops token (congrArg Except.ok (Except.ok.inj same))]

theorem sawRoot_of_close {position : Nat} {outcome : Except DecodeError Unit}
    (closed : r.close name position = (outcome, r')) : r'.sawRoot = r.sawRoot := by
  unfold close at closed
  split at closed
  · cases closed
    rfl
  · dsimp only at closed
    split at closed <;> cases closed <;> rfl

/-- A call stops where there is no token because of a fault. -/
theorem next_of_error (read : r.nextToken = (.error e, r')) (names : List Bytes) :
    r.next names = (.error e, r') := by
  rw [next]
  split <;> simp_all

/-- A call stops at the end of the document. -/
theorem next_of_none (read : r.nextToken = (.ok none, r')) (names : List Bytes) :
    r.next names =
      (if r'.openNames.isEmpty then .ok none else .error (.truncated r'.depth), r') := by
  rw [next]
  split <;> simp_all

/-- A call passes over character data. -/
theorem next_of_piece {piece : Piece} (read : r.nextToken = (.ok (some (.piece piece)), r'))
    (names : List Bytes) : r.next names = r'.next names := by
  rw [next]
  split
  · next read' => cases read.symm.trans read'
  · next read' => cases read.symm.trans read'
  · next read' =>
    cases read.symm.trans read'
    rfl

/-- A call passes over an end tag that matches. -/
theorem next_of_closed (read : r.nextToken = (.ok (some (.finish name)), r'))
    (closed : r'.close name r.cursor.position = (.ok (), r'')) (names : List Bytes) :
    r.next names = r''.next names := by
  rw [next]
  split
  · next read' => cases read.symm.trans read'
  · next read' => cases read.symm.trans read'
  · next read' =>
    cases read.symm.trans read'
    dsimp only
    split
    · next closed' => cases closed.symm.trans closed'
    · next closed' =>
      cases closed.symm.trans closed'
      rfl

/-- A call enters an element that is not asked for. -/
theorem next_of_passed {names : List Bytes}
    (read : r.nextToken = (.ok (some (.start name attributes isEmpty)), r'))
    (passed : ¬ (r'.depth = 1 ∧ name ∈ names)) :
    r.next names = (r'.noteStart.enter name isEmpty).next names := by
  rw [next]
  split
  · next read' => cases read.symm.trans read'
  · next read' => cases read.symm.trans read'
  · next read' =>
    cases read.symm.trans read'
    exact if_neg passed

/-- A call takes an element that is asked for, with its content unless it is empty. -/
theorem next_of_taken {names : List Bytes}
    (read : r.nextToken = (.ok (some (.start name attributes isEmpty)), r'))
    (taken : r'.depth = 1 ∧ name ∈ names) (valid : Attribute.readAll attributes = .ok values) :
    r.next names =
      if isEmpty then (.ok (some ⟨name, r.cursor.position, values, []⟩), r')
      else
        ((readContent (r'.push name).depth {} (r'.push name)).1.map fun children =>
            some ⟨name, r.cursor.position, values, children⟩,
          (readContent (r'.push name).depth {} (r'.push name)).2) := by
  rw [next]
  split
  · next read' => cases read.symm.trans read'
  · next read' => cases read.symm.trans read'
  · next read' =>
    cases read.symm.trans read'
    refine (if_pos taken).trans ?_
    rw [valid]

/-! ## Readers that do not move -/

/-- The reader gives this answer to every call and stays as it is. -/
def Stuck (answer : Answer) (r : ElementReader) : Prop :=
  ∀ names, r.next names = (answer, r)

theorem stuck_of_error (read : r.nextToken = (.error e, r')) : r'.Stuck (.error e) :=
  fun names => next_of_error (nextToken_again read fun _ => (nomatch ·)) names

theorem stuck_of_none (read : r.nextToken = (.ok none, r')) :
    r'.Stuck (if r'.openNames.isEmpty then .ok none else .error (.truncated r'.depth)) :=
  fun names => next_of_none (nextToken_again read fun _ => (nomatch ·)) names

/-- The answer is given at the end of the document or before a construct that cannot be read. -/
def isLast : Answer → Bool
  | .ok none => true
  | .error (.truncated _) => true
  | .error (.malformed _ .unknownDeclaration) => true
  | _ => false

/-- An end tag that does not match is passed over. -/
theorem not_isLast_of_close {position : Nat} (closed : r.close name position = (.error e, r')) :
    ¬ isLast (.error e) = true := by
  unfold close at closed
  split at closed
  · cases closed
    exact Bool.false_ne_true
  · dsimp only at closed
    split at closed <;> cases closed
    exact Bool.false_ne_true

/-! ## The content of an element -/

/-- What the content of an element at depth `base` says about the reader that it leaves. -/
structure ContentAnswered (base : Nat)
    (outcome : Except DecodeError (List (Bytes × RawText))) (r : ElementReader) : Prop where
  /-- The element is closed. -/
  closed : ∀ children, outcome = .ok children → r.depth + 1 = base
  stuck : ∀ e, outcome = .error e → isLast (.error e) = true → r.Stuck (.error e)

theorem ContentAnswered.of_error (base : Nat)
    (stuck : isLast (.error e) = true → r.Stuck (.error e)) :
    ContentAnswered base (.error e) r where
  closed _ same := by cases same
  stuck _ same last := by
    cases same
    exact stuck last

/-- Content is read inside its element, so the reader closes just this one with it. -/
theorem readContent_answered (base : Nat) (content : Content) (r : ElementReader)
    (inside : 0 < base) (deep : base ≤ r.depth) :
    ContentAnswered base (readContent base content r).1 (readContent base content r).2 := by
  fun_induction readContent base content r with
  | case1 content r fault r' read => exact .of_error base fun _ => stuck_of_error read
  | case2 content r r' read =>
    have stuck := stuck_of_none read
    obtain ⟨cursor, rfl, -⟩ := feed_of_none read
    have unclosed : ¬ r.openNames.isEmpty = true := fun empty => by
      rw [ElementReader.depth, List.isEmpty_iff.1 empty] at deep
      exact absurd deep (Nat.not_le_of_lt inside)
    rw [if_neg unclosed] at stuck
    exact .of_error base fun _ => stuck
  | case3 content r position r' name attributes isEmpty _ _ content' read _ ih =>
    obtain ⟨depth', -⟩ := depth_of_nextToken read
    have deep' : base ≤ r'.depth := depth'.symm ▸ deep
    refine ih ?_
    cases isEmpty with
    | true => exact deep'
    | false => exact Nat.le_succ_of_le deep'
  | case4 content r position r' name _ _ fault r'' closed read =>
    exact .of_error base fun last => absurd last (not_isLast_of_close closed)
  | case5 content r position r' name _ _ r'' closed _ shallow read =>
    obtain ⟨depth', -⟩ := depth_of_nextToken read
    obtain ⟨depth'', -⟩ := depth_of_close closed
    have one : r''.depth + 1 = base := by omega
    refine ⟨fun _ _ => one, fun e same => ?_⟩
    cases same
  | case6 content r position r' name _ _ r'' closed _ shallow content' read _ ih =>
    exact ih (Nat.le_of_not_lt shallow)
  | case7 content r r' piece _ read _ ih =>
    obtain ⟨depth', -⟩ := depth_of_nextToken read
    exact ih (depth'.symm ▸ deep)

theorem readContent_sawRoot (base : Nat) (content : Content) (r : ElementReader) :
    (readContent base content r).2.sawRoot = r.sawRoot := by
  fun_induction readContent base content r with
  | case1 content r fault r' read => exact (kept_of_nextToken read).2
  | case2 content r r' read => exact (kept_of_nextToken read).2
  | case3 content r position r' name attributes isEmpty _ _ content' read _ ih =>
    refine ih.trans (Eq.trans ?_ (kept_of_nextToken read).2)
    cases isEmpty <;> rfl
  | case4 content r position r' name _ _ fault r'' closed read =>
    exact (sawRoot_of_close closed).trans (kept_of_nextToken read).2
  | case5 content r position r' name _ _ r'' closed _ shallow read =>
    exact (sawRoot_of_close closed).trans (kept_of_nextToken read).2
  | case6 content r position r' name _ _ r'' closed _ shallow content' read _ ih =>
    exact ih.trans ((sawRoot_of_close closed).trans (kept_of_nextToken read).2)
  | case7 content r r' piece _ read _ ih => exact ih.trans (kept_of_nextToken read).2

/-! ## One call -/

/-- Where an element is open, a root was seen. -/
def Rooted (r : ElementReader) : Prop :=
  0 < r.depth → r.sawRoot = true

/-- What an answer to a call for some names says about the reader that it leaves. -/
structure Answered (names : List Bytes) (answer : Answer) (r : ElementReader) : Prop where
  element : ∀ e, answer = .ok (some e) → e.name ∈ names ∧ r.depth = 1
  ended : answer = .ok none → r.depth = 0
  stuck : isLast answer = true → r.Stuck answer
  rooted : r.Rooted

theorem Answered.of_error {names : List Bytes}
    (stuck : isLast (.error e) = true → r.Stuck (.error e)) (rooted : r.Rooted) :
    Answered names (.error e) r where
  element _ same := by cases same
  ended same := by cases same
  stuck := stuck
  rooted := rooted

theorem Answered.of_element {names : List Bytes} {found : Element} (named : found.name ∈ names)
    (inRoot : r.depth = 1) (rooted : r.Rooted) : Answered names (.ok (some found)) r where
  element _ same := by
    cases same
    exact ⟨named, inRoot⟩
  ended same := by cases same
  stuck last := by cases last
  rooted := rooted

theorem Rooted.sawRoot_of_cons (rooted : r.Rooted) {others : List Bytes}
    (names : r.openNames = name :: others) : r.sawRoot = true := by
  refine rooted ?_
  rw [ElementReader.depth, names]
  exact Nat.succ_pos _

/-- A reader of which nothing but the cursor has moved is as rooted as before. -/
theorem Rooted.of_nextToken (rooted : r.Rooted) {outcome : Except DecodeError (Option Token)}
    (read : r.nextToken = (outcome, r')) : r'.Rooted := by
  obtain ⟨names, saw⟩ := kept_of_nextToken read
  unfold Rooted ElementReader.depth
  rw [names, saw]
  exact rooted

theorem Rooted.of_close (rooted : r.Rooted) {position : Nat} {outcome : Except DecodeError Unit}
    (closed : r.close name position = (outcome, r')) : r'.Rooted := by
  unfold close at closed
  split at closed
  · cases closed
    exact rooted
  · next expected others names =>
    have saw := rooted.sawRoot_of_cons names
    dsimp only at closed
    split at closed <;> cases closed <;> exact fun _ => saw

/-- An element that opens is the root or lies in one. -/
theorem Rooted.enter (rooted : r.Rooted) (name : Bytes) (isEmpty : Bool) :
    (r.noteStart.enter name isEmpty).Rooted := by
  have saw : r.noteStart.sawRoot = true := by
    unfold noteStart
    cases names : r.openNames with
    | nil => exact Bool.or_true _
    | cons inner others =>
      rw [rooted.sawRoot_of_cons names]
      rfl
  cases isEmpty <;> exact fun _ => saw

/-- One call, whatever the calls before it left open. -/
theorem next_answered (rooted : r.Rooted) (names : List Bytes) :
    Answered names (r.next names).1 (r.next names).2 := by
  fun_induction ElementReader.next names r with
  | case1 r fault r' read =>
    exact .of_error (fun _ => stuck_of_error read) (rooted.of_nextToken read)
  | case2 r r' read =>
    have stuck := stuck_of_none read
    refine ⟨fun e same => ?_, fun ended => ?_, fun _ => stuck, rooted.of_nextToken read⟩
    · dsimp only at same
      split at same <;> cases same
    · dsimp only at ended
      split at ended
      · next empty => exact congrArg List.length (List.isEmpty_iff.1 empty)
      · cases ended
  | case3 r position r' name attributes isEmpty _ taken fault faulty read _ =>
    exact .of_error (fun last => by cases last) (rooted.of_nextToken read)
  | case4 r position r' name attributes taken values valid _ read _ =>
    exact .of_element taken.2 taken.1 (rooted.of_nextToken read)
  | case5 r position r' name attributes isEmpty _ taken values valid full pushed content r''
      inside read _ =>
    have two : pushed.depth = 2 := congrArg Nat.succ taken.1
    have answered := readContent_answered pushed.depth {} pushed (by omega) (Nat.le_refl _)
    have saw := readContent_sawRoot pushed.depth {} pushed
    rw [inside] at answered saw
    have saw' : r'.sawRoot = true := rooted.of_nextToken read (by rw [taken.1]; exact Nat.one_pos)
    have rooted'' : r''.Rooted := fun _ => saw.trans saw'
    cases content with
    | error fault => exact .of_error (answered.stuck fault rfl) rooted''
    | ok children =>
      have one : r''.depth = 1 := Nat.succ.inj ((answered.closed children rfl).trans two)
      exact .of_element taken.2 one rooted''
  | case6 r r' name attributes isEmpty _ passed _ read _ ih =>
    exact ih ((rooted.of_nextToken read).enter name isEmpty)
  | case7 r position r' name _ _ fault r'' closed read _ =>
    exact .of_error (fun last => absurd last (not_isLast_of_close closed))
      ((rooted.of_nextToken read).of_close closed)
  | case8 r position r' name _ _ r'' closed _ read _ ih =>
    exact ih ((rooted.of_nextToken read).of_close closed)
  | case9 r r' piece _ read _ ih => exact ih (rooted.of_nextToken read)

/-- What a call has seen stays seen. -/
theorem sawRoot_of_next (saw : r.sawRoot = true) (names : List Bytes) :
    (r.next names).2.sawRoot = true := by
  fun_induction ElementReader.next names r with
  | case1 r fault r' read => exact (kept_of_nextToken read).2.trans saw
  | case2 r r' read => exact (kept_of_nextToken read).2.trans saw
  | case3 r position r' name attributes isEmpty _ taken fault faulty read _ =>
    exact (kept_of_nextToken read).2.trans saw
  | case4 r position r' name attributes taken values valid _ read _ =>
    exact (kept_of_nextToken read).2.trans saw
  | case5 r position r' name attributes isEmpty _ taken values valid full pushed content r''
      inside read _ =>
    have content := readContent_sawRoot pushed.depth {} pushed
    rw [inside] at content
    exact content.trans ((kept_of_nextToken read).2.trans saw)
  | case6 r r' name attributes isEmpty _ passed _ read _ ih =>
    refine ih ?_
    have noted : r'.noteStart.sawRoot = true := by
      rw [noteStart, (kept_of_nextToken read).2, saw]
      rfl
    cases isEmpty <;> exact noted
  | case7 r position r' name _ _ fault r'' closed read _ =>
    exact (sawRoot_of_close closed).trans ((kept_of_nextToken read).2.trans saw)
  | case8 r position r' name _ _ r'' closed _ read _ ih =>
    exact ih ((sawRoot_of_close closed).trans ((kept_of_nextToken read).2.trans saw))
  | case9 r r' piece _ read _ ih => exact ih ((kept_of_nextToken read).2.trans saw)

/-! ## Any calls -/

/-- The reader after some calls, each for the names that are given. -/
def after (r : ElementReader) (calls : List (List Bytes)) : ElementReader :=
  calls.foldl (fun r names => (r.next names).2) r

theorem Rooted.after (rooted : r.Rooted) (calls : List (List Bytes)) : (r.after calls).Rooted := by
  induction calls generalizing r with
  | nil => exact rooted
  | cons names calls ih => exact ih (next_answered rooted names).rooted

theorem sawRoot_of_after (saw : r.sawRoot = true) (calls : List (List Bytes)) :
    (r.after calls).sawRoot = true := by
  induction calls generalizing r with
  | nil => exact saw
  | cons names calls ih => exact ih (sawRoot_of_next saw names)

theorem Stuck.after_eq (stuck : r.Stuck answer) (calls : List (List Bytes)) :
    r.after calls = r := by
  induction calls with
  | nil => rfl
  | cons names calls ih =>
    show ((r.next names).2).after calls = r
    rw [stuck names]
    exact ih

/-- A call of a reader after any calls, and any calls after it. An element that is found bears one
of the names and lies directly in a root; at the end no element is open; the answer at the end or
before a construct that cannot be read is given for ever, and the reader stays as it is; and a root
that was seen stays seen, which it was if an element is open. -/
theorem calls_answered (document : Bytes) (before : List (List Bytes)) (names : List Bytes)
    (later : List (List Bytes)) :
    let r := (ofBytes document).after before
    let answer := (r.next names).1
    let r' := (r.next names).2
    let r'' := r'.after later
    (∀ e, answer = .ok (some e) → e.name ∈ names ∧ r'.depth = 1 ∧ r'.sawRoot = true) ∧
    (answer = .ok none → r'.depth = 0) ∧
    (isLast answer = true → ∀ names', r''.next names' = (answer, r')) ∧
    (r.sawRoot = true → r''.sawRoot = true) ∧
    (0 < r.depth → r.sawRoot = true) := by
  intro r answer r' r''
  have fresh : (ofBytes document).Rooted := by
    unfold ofBytes
    split <;> exact fun deep => absurd deep (Nat.lt_irrefl 0)
  have rooted : r.Rooted := fresh.after before
  have answered : Answered names answer r' := next_answered rooted names
  refine ⟨fun e found => ?_, answered.ended, fun last names' => ?_,
    fun saw => sawRoot_of_after (sawRoot_of_next saw names) later, rooted⟩
  · obtain ⟨named, one⟩ := answered.element e found
    exact ⟨named, one, answered.rooted (Nat.lt_of_lt_of_eq Nat.one_pos one.symm)⟩
  · have stuck := answered.stuck last
    have stays : r'' = r' := stuck.after_eq later
    exact stays ▸ stuck names'

/-- After a faulty attribute list and an end tag that closes the wrong element the root counts as
closed, and what follows is no declaration. -/
example :
    let names := [Bytes.ofAscii "node"]
    let r := (ofBytes (Bytes.ofAscii "<g><node id></node><!x")).after [names, names]
    (r.depth, r.sawRoot, (r.next names).1) =
      (0, true, .error (.malformed 19 .unknownDeclaration)) := by
  decide +kernel

end ElementReader
end GraphScribe
