import GraphScribe.Markup.SyntaxFault

/-!
# Attributes of events

The attributes in the content of a tag, each with the offset of its key. A key begins with any byte
but white space; the keys are compared before their values are looked at. A fault is located by the
offset of the byte that should not be there, or by the length of the content.
-/

namespace GraphScribe.Markup

/-- An attribute in the content of a tag: the offset of its key, its key and its value. -/
structure EventAttribute where
  position : Nat
  key : Bytes
  value : Bytes
deriving DecidableEq, Repr

namespace EventAttribute

/-- The byte belongs to a key that has begun. -/
def isKeyByte (b : UInt8) : Bool := !(b == equals || isSpace b)

/-- The value between quotes after an equal sign, and what follows it, in a content of `length`
bytes. -/
def readValue (length : Nat) (bytes : Bytes) : Except EventAttributeFault (Bytes × Bytes) :=
  match bytes.dropWhile isSpace with
  | [] => .error (.noValue length)
  | quote :: rest =>
    if !isQuote quote then .error (.notQuoted (length - (rest.length + 1)))
    else match rest.dropWhile (· != quote) with
      | [] => .error (.notClosed length (Char.ofNat quote.toNat))
      | _ :: after => .ok (rest.takeWhile (· != quote), after)

theorem readValue_length {length : Nat} {bytes value after : Bytes}
    (h : readValue length bytes = .ok (value, after)) : after.length ≤ bytes.length := by
  have skipped := (List.dropWhile_suffix isSpace (l := bytes)).length_le
  unfold readValue at h
  split at h
  · contradiction
  · next quote rest eq =>
    rw [eq, List.length_cons] at skipped
    have found := (List.dropWhile_suffix (· != quote) (l := rest)).length_le
    grind

/-- Reads the attributes in the rest of a content of `length` bytes, after the ones in `done` (last
first). -/
def readAllFrom (length : Nat) (done : List EventAttribute) (bytes : Bytes) :
    Except EventAttributeFault (List EventAttribute) :=
  match h : bytes.dropWhile isSpace with
  | [] => .ok done.reverse
  | b :: rest =>
    let position := length - (rest.length + 1)
    let key := b :: rest.takeWhile isKeyByte
    match h' : (rest.dropWhile isKeyByte).dropWhile isSpace with
    | [] => .error (.noEquals length)
    | sign :: afterSign =>
      if sign != equals then .error (.noEquals (length - (afterSign.length + 1)))
      else match done.find? (·.key == key) with
        | some previous => .error (.duplicate position previous.position)
        | none =>
          match h'' : readValue length afterSign with
          | .error fault => .error fault
          | .ok (value, after) =>
            have := readValue_length h''
            have := h ▸ (List.dropWhile_suffix isSpace (l := bytes)).length_le
            have := (List.dropWhile_suffix isKeyByte (l := rest)).length_le
            have := h' ▸ (List.dropWhile_suffix isSpace (l := rest.dropWhile isKeyByte)).length_le
            readAllFrom length (⟨position, key, value⟩ :: done) after
termination_by bytes.length
decreasing_by simp only [List.length_cons] at *; omega

/-- The attributes in the content of a tag whose name has `nameLength` bytes. -/
def readAll (content : Bytes) (nameLength : Nat) :
    Except EventAttributeFault (List EventAttribute) :=
  readAllFrom content.length [] (content.drop nameLength)

end EventAttribute
end GraphScribe.Markup
