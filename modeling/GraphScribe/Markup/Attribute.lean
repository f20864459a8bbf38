import GraphScribe.Markup.Ascii

/-!
# Attributes

The attributes of a start tag: keys with quoted values, in order, no key twice. White space may
stand around keys, equal signs and values. Values are kept byte for byte.
-/

namespace GraphScribe.Markup

/-- A key with its value. -/
abbrev Attribute := Bytes × Bytes

/-- What is wrong with an attribute. -/
inductive AttributeProblem where
  | noValue
  | notQuoted
  | notClosed
  | duplicate
deriving DecidableEq, Repr

/-- An attribute at fault. -/
structure AttributeFault where
  key : Bytes
  problem : AttributeProblem
deriving DecidableEq, Repr

namespace Attribute

/-- The byte belongs to a key. -/
def isKeyByte (b : UInt8) : Bool :=
  !(b == equals || isWideSpace b)

/-- The bytes without the white space in front. -/
def skipSpace (bytes : Bytes) : Bytes :=
  bytes.dropWhile isWideSpace

/-- The value after a key and its equal sign, and what follows the closing quote. -/
def readValue (bytes : Bytes) : Except AttributeProblem (Bytes × Bytes) :=
  match skipSpace bytes with
  | [] => .error .noValue
  | quote :: rest =>
    if isQuote quote then
      match rest.dropWhile (· != quote) with
      | [] => .error .notClosed
      | _ :: after => .ok (rest.takeWhile (· != quote), after)
    else .error .notQuoted

/-- The attribute at the front of some bytes, and what follows it. -/
def read (bytes : Bytes) : Except AttributeFault (Attribute × Bytes) :=
  let key := bytes.takeWhile isKeyByte
  match skipSpace (bytes.dropWhile isKeyByte) with
  | [] => .error ⟨key, .noValue⟩
  | b :: rest =>
    if b == equals then
      match readValue rest with
      | .ok (value, after) => .ok ((key, value), after)
      | .error problem => .error ⟨key, problem⟩
    else .error ⟨key, .noValue⟩

theorem skipSpace_length (bytes : Bytes) : (skipSpace bytes).length ≤ bytes.length :=
  (List.dropWhile_suffix _).length_le

theorem readValue_length {bytes value after : Bytes} (h : readValue bytes = .ok (value, after)) :
    after.length ≤ bytes.length := by
  have skipped := skipSpace_length bytes
  unfold readValue at h
  split at h
  · contradiction
  · next quote rest eq =>
    rw [eq, List.length_cons] at skipped
    have found := (List.dropWhile_suffix (· != quote) (l := rest)).length_le
    grind

/-- An attribute takes at least one byte. -/
theorem read_length {bytes after : Bytes} {a : Attribute} (h : read bytes = .ok (a, after)) :
    after.length < bytes.length := by
  have key := (List.dropWhile_suffix isKeyByte (l := bytes)).length_le
  have skipped := skipSpace_length (bytes.dropWhile isKeyByte)
  unfold read at h
  split at h
  · contradiction
  · next b rest eq =>
    rw [eq, List.length_cons] at skipped
    split at h
    · split at h
      · next value _ valueRead =>
        have := readValue_length valueRead
        simp only [Except.ok.injEq, Prod.mk.injEq] at h
        rw [← h.2]
        omega
      · contradiction
    · contradiction

/-- Reads attributes after the ones in `done` (last first). -/
def readAllFrom (done : List Attribute) (bytes : Bytes) : Except AttributeFault (List Attribute) :=
  match h : skipSpace bytes with
  | [] => .ok done.reverse
  | b :: rest =>
    match h' : read (b :: rest) with
    | .error fault => .error fault
    | .ok (a, after) =>
      have := h ▸ skipSpace_length bytes
      have := read_length h'
      if done.any (·.1 == a.1) then .error ⟨a.1, .duplicate⟩
      else readAllFrom (a :: done) after
termination_by bytes.length

/-- The attributes of a start tag. -/
def readAll (bytes : Bytes) : Except AttributeFault (List Attribute) :=
  readAllFrom [] bytes

end Attribute
end GraphScribe.Markup
