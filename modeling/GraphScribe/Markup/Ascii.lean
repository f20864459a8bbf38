import GraphScribe.Bytes

/-!
# Bytes of markup

The bytes that have a meaning in markup, and the two notions of white space.
-/

namespace GraphScribe.Markup

/-- The byte `<`, which opens a construct. -/
def opener : UInt8 := 0x3C

/-- The byte `>`, which closes a construct. -/
def closer : UInt8 := 0x3E

/-- The byte `/`. -/
def slash : UInt8 := 0x2F

/-- The byte `!`. -/
def bang : UInt8 := 0x21

/-- The byte `?`. -/
def question : UInt8 := 0x3F

/-- The byte `=`. -/
def equals : UInt8 := 0x3D

/-- A single or a double quote. -/
def isQuote (b : UInt8) : Bool := b == 0x22 || b == 0x27

/-- Space, tab, line feed and carriage return. -/
def isSpace (b : UInt8) : Bool := b == 0x20 || b == 0x09 || b == 0x0A || b == 0x0D

/-- White space with the form feed. -/
def isWideSpace (b : UInt8) : Bool := isSpace b || b == 0x0C

/-- The bytes that mark a text as UTF-8. -/
def byteOrderMark : Bytes := [0xEF, 0xBB, 0xBF]

/-- The number of bytes up to the end of a terminator, which is looked for from `start` on. -/
def closedBy (terminator : String) (start : Nat) (bytes : Bytes) : Option Nat :=
  let terminator := Bytes.ofAscii terminator
  (Bytes.offsetOf? terminator (bytes.drop start)).map fun i => start + i + terminator.length

theorem closedBy_pos {terminator : String} {start length : Nat} {bytes : Bytes}
    (pos : 0 < start) (h : closedBy terminator start bytes = some length) : 0 < length := by
  unfold closedBy at h
  obtain ⟨i, -, rfl⟩ := Option.map_eq_some_iff.1 h
  omega

end GraphScribe.Markup
