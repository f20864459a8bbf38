import GraphScribe.Decode.Error
import GraphScribe.Markup.Token

/-!
# Element reader

A reader goes through a document once and stops at the elements with given names that lie directly
in a top-level element. Such an element is taken as a whole, with its attributes and the character
data that lies directly in its children; nothing is expanded before it is looked up.

A reader may be used after an error: it goes on where it stopped, with the elements that are open.
-/

namespace GraphScribe

open Markup

/-- The character data directly in a child, and where the child begins. -/
structure RawText where
  pieces : List Piece
  position : Nat
deriving DecidableEq, Repr

namespace RawText

/-- The text of one run of character data. -/
def readPiece : Piece → Except TextFault (List Char)
  | .text raw => unescape raw
  | .verbatim raw => readRaw raw

/-- The texts of all runs together, up to the first fault. -/
def resolve (text : RawText) : Except DecodeError (List Char) :=
  ((text.pieces.mapM readPiece).map List.flatten).mapError fun fault =>
    .malformed text.position (.text fault)

end RawText

/-- An element that was asked for. Of children with one name the last one comes first. -/
structure Element where
  name : Bytes
  position : Nat
  attributes : List Attribute
  children : List (Bytes × RawText)
deriving DecidableEq, Repr

namespace Element

/-- The value of an attribute, if the element has it. -/
def attribute? (e : Element) (name : Bytes) : Except DecodeError (Option (List Char)) :=
  match e.attributes.lookup name with
  | none => .ok none
  | some raw =>
    ((unescape raw).map some).mapError fun fault => .malformed e.position (.text fault)

/-- The text of the last child with a name, if there is one. -/
def childText? (e : Element) (name : Bytes) : Except DecodeError (Option (List Char)) :=
  match e.children.lookup name with
  | none => .ok none
  | some text => text.resolve.map some

end Element

/-- A place in a document, the names of the elements that are open there (the innermost first), and
whether any element was seen. -/
structure ElementReader where
  cursor : Cursor
  openNames : List Bytes := []
  sawRoot : Bool := false
deriving DecidableEq, Repr

namespace ElementReader

/-- A reader at the beginning of a document. A byte order mark is passed over. -/
def ofBytes (document : Bytes) : ElementReader :=
  if byteOrderMark.isPrefixOf document then { cursor := Cursor.advance ⟨document, 0⟩ 3 }
  else { cursor := ⟨document, 0⟩ }

/-- The number of open elements. -/
def depth (r : ElementReader) : Nat := r.openNames.length

/-- Opens an element. -/
def push (r : ElementReader) (name : Bytes) : ElementReader :=
  { r with openNames := name :: r.openNames }

/-- Opens an element unless it is empty. -/
def enter (r : ElementReader) (name : Bytes) (isEmpty : Bool) : ElementReader :=
  if isEmpty then r else r.push name

/-- Notes an element: at the top level there is a root now. -/
def noteStart (r : ElementReader) : ElementReader :=
  { r with sawRoot := r.sawRoot || r.openNames.isEmpty }

/-- Closes the innermost element, whose end tag has to bear its name. -/
def close (r : ElementReader) (name : Bytes) (position : Nat) :
    Except DecodeError Unit × ElementReader :=
  match r.openNames with
  | [] => (.error (.malformed position (.unmatchedTag name)), r)
  | expected :: rest =>
    let r := { r with openNames := rest }
    if expected == name then (.ok (), r)
    else (.error (.malformed position (.mismatchedTags expected name)), r)

/-- The next token and the reader after it. -/
def nextToken (r : ElementReader) : Except DecodeError (Option Token) × ElementReader :=
  let (outcome, cursor) := r.cursor.next
  let r := { r with cursor }
  match outcome with
  | .ok token => (.ok token, r)
  | .error .unclosed => (.error (.truncated r.depth), r)
  | .error .unknownDeclaration => (.error (.malformed cursor.position .unknownDeclaration), r)

theorem nextToken_length {r r' : ElementReader} {token : Token}
    (h : r.nextToken = (.ok (some token), r')) :
    r'.cursor.rest.length < r.cursor.rest.length := by
  unfold nextToken at h
  rcases eq : r.cursor.next with ⟨outcome, cursor⟩
  rw [eq] at h
  rcases outcome with (_ | _) | token?
  · simp at h
  · simp at h
  · simp only [Prod.mk.injEq, Except.ok.injEq] at h
    rw [h.1] at eq
    have := Cursor.next_length eq
    rwa [← h.2]

theorem close_cursor (r : ElementReader) (name : Bytes) (position : Nat) :
    (r.close name position).2.cursor = r.cursor := by
  unfold close
  grind

theorem enter_cursor (r : ElementReader) (name : Bytes) (isEmpty : Bool) :
    (r.enter name isEmpty).cursor = r.cursor := by
  unfold enter push
  grind

/-! ## The content of an element -/

/-- The character data collected so far of the child that is open, if any, and the children that
are complete, the last one first. -/
structure Content where
  child : Option (Bytes × RawText) := none
  children : List (Bytes × RawText) := []

namespace Content

/-- A child begins. An empty one is complete at once. -/
def start (c : Content) (name : Bytes) (isEmpty : Bool) (position : Nat) : Content :=
  if isEmpty then { c with children := (name, ⟨[], position⟩) :: c.children }
  else { c with child := some (name, ⟨[], position⟩) }

/-- Character data directly in the open child. -/
def add (c : Content) (piece : Piece) : Content :=
  { c with child := c.child.map fun (name, text) =>
      (name, { text with pieces := text.pieces ++ [piece] }) }

/-- The open child ends. -/
def finish (c : Content) : Content :=
  match c.child with
  | none => c
  | some child => { child := none, children := child :: c.children }

end Content

/-- Reads up to the end of the element that is open at depth `base`, whose content so far is
`content`. -/
def readContent (base : Nat) (content : Content) (r : ElementReader) :
    Except DecodeError (List (Bytes × RawText)) × ElementReader :=
  let position := r.cursor.position
  match h : r.nextToken with
  | (.error e, r') => (.error e, r')
  | (.ok none, r') => (.error (.truncated r'.depth), r')
  | (.ok (some token), r') =>
    have := nextToken_length h
    match token with
    | .start name _ isEmpty =>
      have := r'.enter_cursor name isEmpty
      let content := if r'.depth = base then content.start name isEmpty position else content
      readContent base content (r'.enter name isEmpty)
    | .finish name =>
      have cursor := r'.close_cursor name position
      match h' : r'.close name position with
      | (.error e, r'') => (.error e, r'')
      | (.ok (), r'') =>
        have : r''.cursor = r'.cursor := by rw [← cursor, h']
        if r''.depth < base then (.ok content.children, r'')
        else
          let content := if r''.depth = base then content.finish else content
          readContent base content r''
    | .piece piece =>
      readContent base (if r'.depth = base + 1 then content.add piece else content) r'
termination_by r.cursor.rest.length
decreasing_by all_goals simp_all

/-! ## Elements -/

/-- The next element with one of the names directly in a top-level element, or `none` at the end of
the document. -/
def next (names : List Bytes) (r : ElementReader) :
    Except DecodeError (Option Element) × ElementReader :=
  let position := r.cursor.position
  match h : r.nextToken with
  | (.error e, r') => (.error e, r')
  | (.ok none, r') =>
    (if r'.openNames.isEmpty then .ok none else .error (.truncated r'.depth), r')
  | (.ok (some token), r') =>
    have := nextToken_length h
    match token with
    | .start name attributes isEmpty =>
      if r'.depth = 1 ∧ name ∈ names then
        match Attribute.readAll attributes with
        | .error fault => (.error (.malformed position (.attribute fault)), r')
        | .ok attributes =>
          if isEmpty then (.ok (some ⟨name, position, attributes, []⟩), r')
          else
            let r' := r'.push name
            let (content, r'') := readContent r'.depth {} r'
            (content.map fun children => some ⟨name, position, attributes, children⟩, r'')
      else
        have := r'.noteStart.enter_cursor name isEmpty
        next names (r'.noteStart.enter name isEmpty)
    | .finish name =>
      have cursor := r'.close_cursor name position
      match h' : r'.close name position with
      | (.error e, r'') => (.error e, r'')
      | (.ok (), r'') =>
        have : r''.cursor = r'.cursor := by rw [← cursor, h']
        next names r''
    | .piece _ => next names r'
termination_by r.cursor.rest.length
decreasing_by all_goals simp_all [noteStart]

theorem nextToken_length_le (r : ElementReader) :
    r.nextToken.2.cursor.rest.length ≤ r.cursor.rest.length := by
  have := Cursor.next_length_le r.cursor
  unfold nextToken
  grind

theorem readContent_length_le (base : Nat) (content : Content) (r : ElementReader) :
    (readContent base content r).2.cursor.rest.length ≤ r.cursor.rest.length := by
  fun_induction readContent base content r <;> grind [nextToken_length_le]

/-- An element leaves fewer bytes. -/
theorem next_length {names : List Bytes} {r r' : ElementReader} {e : Element}
    (h : r.next names = (.ok (some e), r')) :
    r'.cursor.rest.length < r.cursor.rest.length := by
  fun_induction next names r with
  | case1 => simp at h
  | case5 => grind [readContent_length_le, push]
  | case6 => grind [noteStart]
  | _ => grind

end ElementReader
end GraphScribe
