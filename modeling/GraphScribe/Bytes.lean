/-!
# Byte strings

Documents and printed output are lists of bytes. This module holds the few searches that the
readers share: the offset of the first place that passes a test, and cutting blanks off either end.
-/

namespace GraphScribe

/-- A byte string. -/
abbrev Bytes := List UInt8

namespace Bytes

/-- The bytes of an ASCII text. -/
def ofAscii (text : String) : Bytes :=
  text.toList.map Char.toUInt8

/-- The offset of the first non-empty suffix that passes `test`, counted from `offset`. -/
def seek (test : Bytes → Bool) : Bytes → Nat → Option Nat
  | [], _ => none
  | b :: rest, offset => if test (b :: rest) then some offset else seek test rest (offset + 1)

/-- The offset of the first byte equal to `b`. -/
def indexOf? (bytes : Bytes) (b : UInt8) : Option Nat :=
  bytes.findIdx? (· == b)

/-- The offset of the first occurrence of a non-empty byte string. -/
def offsetOf? (pattern bytes : Bytes) : Option Nat :=
  seek (pattern.isPrefixOf ·) bytes 0

/-- Cuts the bytes that pass `test` off the end. -/
def trimEndWhere (test : UInt8 → Bool) (bytes : Bytes) : Bytes :=
  (bytes.reverse.dropWhile test).reverse

/-- What follows a byte is shorter than the whole. -/
theorem length_lt_of_drop_eq_cons {bytes rest : Bytes} {i : Nat} {b : UInt8}
    (h : bytes.drop i = b :: rest) : rest.length < bytes.length := by
  have := congrArg List.length h
  simp only [List.length_drop, List.length_cons] at this
  omega

/-- An ASCII letter in lower case, any other byte as it is. -/
def lower (b : UInt8) : UInt8 :=
  if 0x41 ≤ b && b ≤ 0x5A then b + 0x20 else b

/-- Equality up to the case of ASCII letters. -/
def sameLetters (a b : Bytes) : Bool :=
  a.map lower == b.map lower

end Bytes
end GraphScribe
