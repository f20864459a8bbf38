import GraphScribe.Source
import GraphScribe.Markup.SyntaxFault

/-!
# Events

Markup as a sequence of events: tags, character data, and everything else. The reader of events
checks that tags match, and tells a document that ends too early from one that fails to arrive: a
construct that is complete within the bytes that arrived is an event whatever follows.
-/

namespace GraphScribe.Markup

/-- What stands between the brackets of a start tag, with the length of its name. -/
structure Tag where
  content : Bytes
  nameLength : Nat
deriving DecidableEq, Repr

/-- The name of a tag. -/
def Tag.name (t : Tag) : Bytes := t.content.take t.nameLength

/-- The tag of a content: its name ends at the first white space. -/
def Tag.ofContent (content : Bytes) : Tag :=
  ⟨content, (content.takeWhile (!isSpace ·)).length⟩

/-- One construct of the markup. -/
inductive Event where
  | start (tag : Tag)
  | empty (tag : Tag)
  | finish (name : Bytes)
  | text (raw : Bytes)
  | verbatim (raw : Bytes)
  /-- A comment, an instruction or a declaration. -/
  | other
deriving DecidableEq, Repr

/-- Why no event stands at the front of some bytes. -/
inductive EventFault where
  | unclosed
  | unknownSymbol
  | unnamedDocumentType
deriving DecidableEq, Repr

/-- What stands at the front of some bytes. -/
inductive Scan where
  /-- An event that takes `length` bytes. -/
  | event (event : Event) (length : Nat)
  /-- A text up to the end of the bytes, which may go on after it. -/
  | tail (raw : Bytes)
  /-- A fault that no further bytes would mend. -/
  | fault (fault : EventFault)
  /-- The bytes end inside an event; `fault` is what it means if the document ends there, too. -/
  | ended (fault : EventFault)
deriving DecidableEq, Repr

namespace Scan

/-- The offset of the first `>` outside quotes, where `bytes` begin at `offset`, inside the quote
that is given. -/
def tagCloser (quote : Option UInt8) (offset : Nat) : Bytes → Option Nat
  | [] => none
  | b :: rest =>
    match quote with
    | some q => tagCloser (if b == q then none else some q) (offset + 1) rest
    | none =>
      if b == closer then some offset
      else tagCloser (if isQuote b then some b else none) (offset + 1) rest

/-- The offset of the first `>` that closes no other bracket, where `bytes` begin at `offset` inside
`depth` brackets. -/
def bracketCloser (depth offset : Nat) : Bytes → Option Nat
  | [] => none
  | b :: rest =>
    if b == opener then bracketCloser (depth + 1) (offset + 1) rest
    else if b == closer then
      match depth with
      | 0 => some offset
      | depth + 1 => bracketCloser depth (offset + 1) rest
    else bracketCloser depth (offset + 1) rest

/-- A verbatim section. -/
def ofVerbatim (bytes : Bytes) : Scan :=
  match closedBy "]]>" 2 bytes with
  | none => .ended .unclosed
  | some length =>
    if (Bytes.ofAscii "<![CDATA[").isPrefixOf bytes then
      .event (.verbatim ((bytes.take (length - 3)).drop 9)) length
    else .fault .unclosed

/-- A comment. -/
def ofComment (bytes : Bytes) : Scan :=
  match closedBy "-->" 4 bytes with
  | none => .ended .unclosed
  | some length =>
    if (Bytes.ofAscii "<!--").isPrefixOf bytes then .event .other length else .fault .unclosed

/-- A document type declaration. It has to name the type. -/
def ofDeclaration (bytes : Bytes) : Scan :=
  match bracketCloser 0 2 (bytes.drop 2) with
  | none => .ended .unclosed
  | some i =>
    let content := bytes.take i
    if !Bytes.sameLetters (content.take 9) (Bytes.ofAscii "<!DOCTYPE") then .fault .unclosed
    else if (content.drop 9).all isSpace then .fault .unnamedDocumentType
    else .event .other (i + 1)

/-- What begins with `<!`. The next byte alone decides which construct it is. -/
def ofBang (bytes : Bytes) : Scan :=
  match bytes[2]? with
  | none => .ended .unknownSymbol
  | some b =>
    if b == 0x5B then ofVerbatim bytes
    else if b == 0x2D then ofComment bytes
    else if b == 0x44 || b == 0x64 then ofDeclaration bytes
    else .fault .unknownSymbol

/-- An instruction. Its opening question mark cannot close it. -/
def ofInstruction (bytes : Bytes) : Scan :=
  match closedBy "?>" 1 bytes with
  | none => .ended .unclosed
  | some length => if length = 3 then .fault .unclosed else .event .other length

/-- The name in an end tag: white space after it does not count, unless there is nothing else. -/
def endName (content : Bytes) : Bytes :=
  let name := Bytes.trimEndWhere isSpace content
  if name.isEmpty then content else name

/-- An end tag. -/
def ofEndTag (bytes : Bytes) : Scan :=
  match tagCloser none 1 (bytes.drop 1) with
  | none => .ended .unclosed
  | some i => .event (.finish (endName ((bytes.take i).drop 2))) (i + 1)

/-- A start tag. A final slash makes the element empty. -/
def ofStartTag (bytes : Bytes) : Scan :=
  match tagCloser none 1 (bytes.drop 1) with
  | none => .ended .unclosed
  | some i =>
    let content := (bytes.take i).drop 1
    if content.getLast? == some slash then .event (.empty (.ofContent content.dropLast)) (i + 1)
    else .event (.start (.ofContent content)) (i + 1)

/-- A text up to the next construct. -/
def ofText (bytes : Bytes) : Scan :=
  let raw := bytes.takeWhile (· != opener)
  match bytes.dropWhile (· != opener) with
  | [] => .tail raw
  | _ :: _ => .event (.text raw) raw.length

/-- What stands at the front of some bytes, of which there is at least one. -/
def ofBytes (bytes : Bytes) : Scan :=
  if bytes.head? == some opener then
    match bytes[1]? with
    | none => .ended .unclosed
    | some b =>
      if b == bang then ofBang bytes
      else if b == slash then ofEndTag bytes
      else if b == question then ofInstruction bytes
      else ofStartTag bytes
  else ofText bytes

theorem ofBang_pos {bytes : Bytes} {e : Event} {n : Nat} (h : ofBang bytes = .event e n) :
    0 < n := by
  have comment := @closedBy_pos "-->" 4 n bytes (by omega)
  have verbatim := @closedBy_pos "]]>" 2 n bytes (by omega)
  unfold ofBang ofVerbatim ofComment ofDeclaration at h
  grind

/-- An event takes at least one byte. -/
theorem ofBytes_pos {b : UInt8} {rest : Bytes} {e : Event} {n : Nat}
    (h : ofBytes (b :: rest) = .event e n) : 0 < n := by
  unfold ofBytes at h
  split at h
  · have declaration := @ofBang_pos (b :: rest) e n
    have instruction := @closedBy_pos "?>" 1 n (b :: rest) (by omega)
    unfold ofEndTag ofInstruction ofStartTag at h
    grind
  · next notOpener =>
    simp only [List.head?_cons, beq_iff_eq, Option.some.injEq] at notOpener
    unfold ofText at h
    simp only [List.takeWhile_cons, bne_iff_ne.2 notOpener, if_true] at h
    grind

end Scan

/-! ## Reading -/

/-- A place in a document, the failure that ends it, if one does, and the names of the elements that
are open (the innermost first). -/
structure EventReader where
  rest : Bytes
  position : Nat := 0
  failure : Option SystemError := none
  openNames : List Bytes := []
deriving DecidableEq, Repr

/-- Why reading events stops. -/
inductive EventStop where
  | unreadable (failure : SystemError)
  | unclosed
  | malformed (fault : SyntaxFault)
deriving DecidableEq, Repr

namespace EventReader

/-- A reader at the beginning of a source. A byte order mark is passed over, and does not count, if
it arrives in one piece. -/
def ofSource (s : Source) : EventReader :=
  if byteOrderMark.isPrefixOf s.first then { rest := s.bytes.drop 3, failure := s.failure }
  else { rest := s.bytes, failure := s.failure }

/-- The reader after `count` more bytes. -/
def advance (r : EventReader) (count : Nat) : EventReader :=
  { r with rest := r.rest.drop count, position := r.position + count }

/-- What a fault means. -/
def stopOf : EventFault → EventStop
  | .unclosed => .unclosed
  | .unknownSymbol => .malformed .unknownSymbol
  | .unnamedDocumentType => .malformed .unnamedDocumentType

/-- Keeps the names of open elements: an end tag has to bear the innermost one. -/
def track (r : EventReader) (e : Event) : Except EventStop EventReader :=
  match e with
  | .start tag => .ok { r with openNames := tag.name :: r.openNames }
  | .finish name =>
    match r.openNames with
    | [] => .error (.malformed (.unmatchedEvent name))
    | expected :: others =>
      if expected == name then .ok { r with openNames := others }
      else .error (.malformed (.mismatchedEvents expected name))
  | _ => .ok r

/-- The next event and the reader after it, or `none` at the end of the document. -/
def next (r : EventReader) : Except EventStop (Option (Event × EventReader)) :=
  let atEnd {α : Type} (outcome : Except EventStop α) : Except EventStop α :=
    match r.failure with
    | some failure => .error (.unreadable failure)
    | none => outcome
  match r.rest with
  | [] => atEnd (.ok none)
  | b :: rest =>
    match Scan.ofBytes (b :: rest) with
    | .event e n => (track (r.advance n) e).map fun r => some (e, r)
    | .tail raw => atEnd (.ok (some (.text raw, r.advance (rest.length + 1))))
    | .fault fault => .error (stopOf fault)
    | .ended fault => atEnd (.error (stopOf fault))

theorem track_rest {r r' : EventReader} {e : Event} (h : r.track e = .ok r') :
    r'.rest = r.rest := by
  unfold track at h
  grind

/-- An event leaves fewer bytes. -/
theorem next_length {r r' : EventReader} {e : Event} (h : r.next = .ok (some (e, r'))) :
    r'.rest.length < r.rest.length := by
  unfold next at h
  simp only at h
  split at h
  · grind
  · next b rest eq =>
    split at h
    · next e' n scanned =>
      have pos := Scan.ofBytes_pos scanned
      rcases tracked : track (r.advance n) e' with stop | r''
      · simp [tracked, Except.map] at h
      · simp only [tracked, Except.map, Except.ok.injEq, Option.some.injEq, Prod.mk.injEq] at h
        rw [← h.2, track_rest tracked, advance, List.length_drop, eq, List.length_cons]
        omega
    · grind [advance]
    · contradiction
    · grind

end EventReader
end GraphScribe.Markup
