import GraphScribe.Markup.Ascii

/-!
# Tokens

Markup as a sequence of constructs. Tags, texts and verbatim sections are tokens; comments,
instructions and document type declarations are silent. A construct's reader says what stands at the
front of the bytes and how many of them it takes; a cursor walks from one token to the next.

* `readConstruct_pos`: a construct takes at least one byte.
* `Cursor.next_length`: a token leaves fewer bytes.
-/

namespace GraphScribe.Markup

/-- A run of character data: its references are still in it, or it is verbatim. -/
inductive Piece where
  | text (raw : Bytes)
  | verbatim (raw : Bytes)
deriving DecidableEq, Repr

/-- A construct with content. -/
inductive Token where
  | start (name attributes : Bytes) (isEmpty : Bool)
  | finish (name : Bytes)
  | piece (piece : Piece)
deriving DecidableEq, Repr

/-- What a construct is. -/
inductive Construct where
  | token (token : Token)
  | silent
deriving DecidableEq, Repr

/-- Why no construct stands at the front of some bytes. -/
inductive ConstructFault where
  /-- The bytes end inside it. -/
  | unclosed
  /-- What begins like a declaration is none. -/
  | unknownDeclaration
deriving DecidableEq, Repr

/-! ## Ends of constructs -/

/-- The byte decides where a tag ends: it closes the tag, or it opens a quoted value. -/
def isTagMark (b : UInt8) : Bool := b == closer || isQuote b

/-- The offset of the end of a tag, where `bytes` begin outside quotes at `offset`. Quoted values
are skipped as a whole. -/
def tagEndFrom (bytes : Bytes) (offset : Nat) : Option Nat :=
  match bytes.findIdx? isTagMark with
  | none => none
  | some i =>
    match h : bytes.drop i with
    | [] => none
    | mark :: after =>
      if mark == closer then some (offset + i)
      else
        match after.findIdx? (· == mark) with
        | none => none
        | some j =>
          have := Bytes.length_lt_of_drop_eq_cons h
          tagEndFrom (after.drop (j + 1)) (offset + i + 1 + j + 1)
termination_by bytes.length
decreasing_by simp only [List.length_drop]; omega

/-- The offset of the `>` that ends the tag at the front of some bytes. -/
def tagEnd (tag : Bytes) : Option Nat :=
  tagEndFrom (tag.drop 1) 1

/-- The byte opens or closes a bracket. -/
def isBracket (b : UInt8) : Bool := b == opener || b == closer

/-- The offset of the bracket that closes `depth` brackets, where `bytes` begin at `offset`. -/
def bracketEndFrom (depth : Nat) (bytes : Bytes) (offset : Nat) : Option Nat :=
  match bytes.findIdx? isBracket with
  | none => none
  | some i =>
    match h : bytes.drop i with
    | [] => none
    | bracket :: after =>
      have := Bytes.length_lt_of_drop_eq_cons h
      if bracket == opener then bracketEndFrom (depth + 1) after (offset + i + 1)
      else if depth ≤ 1 then some (offset + i)
      else bracketEndFrom (depth - 1) after (offset + i + 1)
termination_by bytes.length

/-- The offset of the `>` that ends the declaration at the front of some bytes, which may hold
other brackets. -/
def declarationEnd (declaration : Bytes) : Option Nat :=
  bracketEndFrom 1 (declaration.drop 2) 2

/-! ## Constructs -/

/-- A silent construct that ends with a terminator. -/
def readSilent (terminator : String) (start : Nat) (bytes : Bytes) :
    Except ConstructFault (Construct × Nat) :=
  match closedBy terminator start bytes with
  | some length => .ok (.silent, length)
  | none => .error .unclosed

/-- A verbatim section: its content stands between nine and three bytes of markup. -/
def readVerbatim (bytes : Bytes) : Except ConstructFault (Construct × Nat) :=
  match closedBy "]]>" 9 bytes with
  | some length => .ok (.token (.piece (.verbatim ((bytes.take (length - 3)).drop 9))), length)
  | none => .error .unclosed

/-- A document type declaration. -/
def readDeclaration (bytes : Bytes) : Except ConstructFault (Construct × Nat) :=
  match declarationEnd bytes with
  | some i => .ok (.silent, i + 1)
  | none => .error .unclosed

/-- What begins with `<!`. -/
def readBang (bytes : Bytes) : Except ConstructFault (Construct × Nat) :=
  if (Bytes.ofAscii "<!--").isPrefixOf bytes then readSilent "-->" 4 bytes
  else if (Bytes.ofAscii "<![CDATA[").isPrefixOf bytes then readVerbatim bytes
  else if Bytes.sameLetters ((bytes.take 9).drop 2) (Bytes.ofAscii "DOCTYPE") then
    readDeclaration bytes
  else .error .unknownDeclaration

/-- An end tag: white space after its name does not count. -/
def readEndTag (bytes : Bytes) : Except ConstructFault (Construct × Nat) :=
  match bytes.indexOf? closer with
  | some i => .ok (.token (.finish (Bytes.trimEndWhere isWideSpace ((bytes.take i).drop 2))), i + 1)
  | none => .error .unclosed

/-- The content of a start tag, split at its first white space. A final slash makes the element
empty. -/
def startToken (content : Bytes) : Token :=
  let isEmpty := content.getLast? == some slash
  let content := if isEmpty then content.dropLast else content
  let isNameByte (b : UInt8) := !isWideSpace b
  .start (content.takeWhile isNameByte) (content.dropWhile isNameByte) isEmpty

/-- A start tag. -/
def readStartTag (bytes : Bytes) : Except ConstructFault (Construct × Nat) :=
  match tagEnd bytes with
  | some i => .ok (.token (startToken ((bytes.take i).drop 1)), i + 1)
  | none => .error .unclosed

/-- A text up to the next construct. -/
def readText (bytes : Bytes) : Construct × Nat :=
  let raw := bytes.takeWhile (· != opener)
  (.token (.piece (.text raw)), raw.length)

/-- The construct at the front of some bytes, of which there is at least one, and the number of
bytes that it takes. -/
def readConstruct (bytes : Bytes) : Except ConstructFault (Construct × Nat) :=
  if bytes.head? == some opener then
    match bytes[1]? with
    | none => .error .unclosed
    | some b =>
      if b == slash then readEndTag bytes
      else if b == bang then readBang bytes
      else if b == question then readSilent "?>" 2 bytes
      else readStartTag bytes
  else .ok (readText bytes)

theorem readBang_pos {bytes : Bytes} {c : Construct} {n : Nat}
    (h : readBang bytes = .ok (c, n)) : 0 < n := by
  unfold readBang readSilent readVerbatim readDeclaration at h
  have comment := @closedBy_pos "-->" 4 n bytes (by omega)
  have verbatim := @closedBy_pos "]]>" 9 n bytes (by omega)
  grind

/-- A construct takes at least one byte. -/
theorem readConstruct_pos {b : UInt8} {rest : Bytes} {c : Construct} {n : Nat}
    (h : readConstruct (b :: rest) = .ok (c, n)) : 0 < n := by
  unfold readConstruct at h
  split at h
  · have declaration := @readBang_pos (b :: rest) c n
    have instruction := @closedBy_pos "?>" 2 n (b :: rest) (by omega)
    unfold readEndTag readSilent readStartTag at h
    grind
  · next notOpener =>
    simp only [readText, Except.ok.injEq, Prod.mk.injEq] at h
    rw [← h.2]
    simp only [List.head?_cons, beq_iff_eq, Option.some.injEq] at notOpener
    simp [notOpener]

/-! ## Cursors -/

/-- A place in a document: what is left, and how many bytes lie before it. -/
structure Cursor where
  rest : Bytes
  position : Nat
deriving DecidableEq, Repr

namespace Cursor

/-- The cursor after `count` more bytes. -/
def advance (c : Cursor) (count : Nat) : Cursor :=
  ⟨c.rest.drop count, c.position + count⟩

/-- The next token, or `none` at the end, and the cursor after it. At a fault the cursor stays where
the faulty construct begins. -/
def next (c : Cursor) : Except ConstructFault (Option Token) × Cursor :=
  match c with
  | ⟨[], position⟩ => (.ok none, ⟨[], position⟩)
  | ⟨b :: rest, position⟩ =>
    match h : readConstruct (b :: rest) with
    | .error fault => (.error fault, ⟨b :: rest, position⟩)
    | .ok (.token token, n) => (.ok (some token), advance ⟨b :: rest, position⟩ n)
    | .ok (.silent, n) =>
      have := readConstruct_pos h
      next (advance ⟨b :: rest, position⟩ n)
termination_by c.rest.length
decreasing_by simp only [advance, List.length_drop, List.length_cons]; omega

theorem advance_length {c : Cursor} {count : Nat} :
    (c.advance count).rest.length = c.rest.length - count := by
  simp [advance]

/-- Reading never goes back. -/
theorem next_length_le (c : Cursor) : c.next.2.rest.length ≤ c.rest.length := by
  fun_induction next c with
  | case1 => exact Nat.le_refl _
  | case2 => exact Nat.le_refl _
  | case3 => simp [advance]
  | case4 _ _ _ _ _ _ ih => exact Nat.le_trans ih (by simp [advance_length])

/-- A token leaves fewer bytes. -/
theorem next_length {c c' : Cursor} {token : Token} (h : c.next = (.ok (some token), c')) :
    c'.rest.length < c.rest.length := by
  fun_induction next c with
  | case1 => simp at h
  | case2 => simp at h
  | case3 _ _ _ _ _ read =>
    have := readConstruct_pos read
    simp only [Prod.mk.injEq, Except.ok.injEq, Option.some.injEq] at h
    rw [← h.2, advance_length, List.length_cons]
    omega
  | case4 _ _ _ n _ _ ih =>
    have := ih h
    simp only [advance_length, List.length_cons] at this ⊢
    omega

end Cursor
end GraphScribe.Markup
