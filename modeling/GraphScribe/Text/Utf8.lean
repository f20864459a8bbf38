import GraphScribe.Bytes

/-!
# UTF-8

Encoding a text, decoding one with the exact place of the first fault, and decoding leniently.
One function, `scan`, splits the next character or the next maximal ill-formed piece off a byte
string; both decoders follow it, so they agree on where faults begin and end.

* `decode` stops at the first fault and says where it is and how long.
* `decodeLossy` puts U+FFFD in the place of every fault.
-/

namespace GraphScribe.Utf8

/-- The UTF-8 form of a text. -/
def encode (text : List Char) : Bytes :=
  text.flatMap String.utf8EncodeChar

/-- A byte of the form `10xxxxxx`. -/
def isContinuation (b : UInt8) : Bool :=
  0x80 ≤ b && b < 0xC0

/-- The second bytes that may follow the first byte of a three-byte sequence: neither an overlong
form nor a surrogate. -/
def secondOfThree (b₀ b₁ : UInt8) : Bool :=
  if b₀ == 0xE0 then 0xA0 ≤ b₁ && b₁ < 0xC0
  else if b₀ == 0xED then 0x80 ≤ b₁ && b₁ < 0xA0
  else isContinuation b₁

/-- The second bytes that may follow the first byte of a four-byte sequence: neither an overlong
form nor a value past U+10FFFF. -/
def secondOfFour (b₀ b₁ : UInt8) : Bool :=
  if b₀ == 0xF0 then 0x90 ≤ b₁ && b₁ < 0xC0
  else if b₀ == 0xF4 then 0x80 ≤ b₁ && b₁ < 0x90
  else isContinuation b₁

/-- What stands at the front of a byte string. -/
inductive Piece where
  /-- A well-formed character, and what follows it. -/
  | char (c : Char) (rest : Bytes)
  /-- The longest ill-formed piece, of `length` bytes, and what follows it. -/
  | invalid (length : Nat) (rest : Bytes)
  /-- The string ends inside a character. -/
  | incomplete

/-- The low six bits of a continuation byte. -/
def low (b : UInt8) : Nat :=
  b.toNat % 64

/-- Splits the next piece off a byte string that starts with `b₀`. -/
def scan (b₀ : UInt8) (rest : Bytes) : Piece :=
  if b₀ < 0x80 then .char (Char.ofNat b₀.toNat) rest
  else if 0xC2 ≤ b₀ && b₀ < 0xE0 then
    match rest with
    | [] => .incomplete
    | b₁ :: rest₁ =>
      if isContinuation b₁ then .char (Char.ofNat (b₀.toNat % 32 * 64 + low b₁)) rest₁
      else .invalid 1 rest
  else if 0xE0 ≤ b₀ && b₀ < 0xF0 then
    match rest with
    | [] => .incomplete
    | b₁ :: rest₁ =>
      if !secondOfThree b₀ b₁ then .invalid 1 rest
      else match rest₁ with
        | [] => .incomplete
        | b₂ :: rest₂ =>
          if isContinuation b₂ then
            .char (Char.ofNat ((b₀.toNat % 16 * 64 + low b₁) * 64 + low b₂)) rest₂
          else .invalid 2 rest₁
  else if 0xF0 ≤ b₀ && b₀ < 0xF5 then
    match rest with
    | [] => .incomplete
    | b₁ :: rest₁ =>
      if !secondOfFour b₀ b₁ then .invalid 1 rest
      else match rest₁ with
        | [] => .incomplete
        | b₂ :: rest₂ =>
          if !isContinuation b₂ then .invalid 2 rest₁
          else match rest₂ with
            | [] => .incomplete
            | b₃ :: rest₃ =>
              if isContinuation b₃ then
                .char (Char.ofNat (((b₀.toNat % 8 * 64 + low b₁) * 64 + low b₂) * 64 + low b₃))
                  rest₃
              else .invalid 3 rest₂
  else .invalid 1 rest

/-- What follows a character is no longer than what followed its first byte. -/
theorem scan_char_length {b₀ : UInt8} {rest rest' : Bytes} {c : Char}
    (h : scan b₀ rest = .char c rest') : rest'.length ≤ rest.length := by
  unfold scan at h
  repeat' split at h
  all_goals grind

/-- What follows an ill-formed piece is no longer than what followed its first byte. -/
theorem scan_invalid_length {b₀ : UInt8} {rest rest' : Bytes} {n : Nat}
    (h : scan b₀ rest = .invalid n rest') : rest'.length ≤ rest.length := by
  unfold scan at h
  repeat' split at h
  all_goals grind

/-- The first fault of a byte string. -/
structure Fault where
  /-- The number of well-formed bytes before it. -/
  offset : Nat
  /-- The length of the ill-formed piece, or `none` if the string ends inside a character. -/
  length : Option Nat
deriving DecidableEq, Repr

/-- The text of a fault. -/
def Fault.message (fault : Fault) : String :=
  match fault.length with
  | some n => s!"invalid utf-8 sequence of {n} bytes from index {fault.offset}"
  | none => s!"incomplete utf-8 byte sequence from index {fault.offset}"

/-- Decodes the bytes from `offset` on, after the characters `done` (last first). -/
def decodeFrom (offset : Nat) (done : List Char) : Bytes → Except Fault (List Char)
  | [] => .ok done.reverse
  | b :: rest =>
    match h : scan b rest with
    | .char c rest' =>
      have := scan_char_length h
      decodeFrom (offset + c.utf8Size) (c :: done) rest'
    | .invalid n _ => .error ⟨offset, some n⟩
    | .incomplete => .error ⟨offset, none⟩
termination_by bytes => bytes.length
decreasing_by simp only [List.length_cons]; omega

/-- The text of a byte string, or its first fault. -/
def decode (bytes : Bytes) : Except Fault (List Char) :=
  decodeFrom 0 [] bytes

/-- Decodes leniently after the characters `done` (last first). -/
def decodeLossyFrom (done : List Char) : Bytes → List Char
  | [] => done.reverse
  | b :: rest =>
    match h : scan b rest with
    | .char c rest' =>
      have := scan_char_length h
      decodeLossyFrom (c :: done) rest'
    | .invalid _ rest' =>
      have := scan_invalid_length h
      decodeLossyFrom ('\uFFFD' :: done) rest'
    | .incomplete => ('\uFFFD' :: done).reverse
termination_by bytes => bytes.length
decreasing_by all_goals (simp only [List.length_cons]; omega)

/-- The text of a byte string, with U+FFFD in the place of every ill-formed piece. -/
def decodeLossy (bytes : Bytes) : String :=
  String.ofList (decodeLossyFrom [] bytes)

end GraphScribe.Utf8
