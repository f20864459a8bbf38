import GraphScribe.Number.Integer

/-!
# References

A reference stands for one character: an ampersand, a name or a numeric code, and a semicolon.
Expanding a text replaces its references and leaves everything else. Faults are located by byte
offsets in the text.
-/

namespace GraphScribe.Markup.Reference

/-- Why a numeric code stands for no character. -/
inductive CodeFault where
  | sign
  | number (fault : Integer.Fault)
  | notCharacter (code : Nat)
  | zero
deriving DecidableEq, Repr

/-- The text of a fault. -/
def CodeFault.message : CodeFault → String
  | .sign => "unexpected number sign"
  | .number fault => fault.message
  | .notCharacter code => s!"`{code}` is not a valid codepoint"
  | .zero => "0x0 character is not permitted in XML"

/-- Why a text cannot be expanded. -/
inductive Fault where
  /-- No semicolon follows the ampersand at `start`; the text has `length` bytes. -/
  | unterminated (start length : Nat)
  /-- The bytes from `start` to `stop` name no character. -/
  | unknownName (start stop : Nat) (name : List Char)
  | code (fault : CodeFault)
deriving DecidableEq, Repr

/-- The text of a fault. -/
def Fault.message : Fault → String
  | .unterminated start length =>
    s!"Error while escaping character at range {start}..{length}: Cannot find ';' after '&'"
  | .unknownName start stop name =>
    s!"at {start}..{stop}: unrecognized entity `{String.ofList name}`"
  | .code fault => s!"invalid character reference: {fault.message}"

/-- The character of a code. -/
def ofCode (code : Nat) : Except CodeFault Char :=
  if code = 0 then .error .zero
  else if h : code.isValidChar then .ok (Char.ofNatAux code h)
  else .error (.notCharacter code)

/-- Reads digits without a sign. -/
def readCode (base : Nat) (digits : List Char) : Except CodeFault Char :=
  match digits with
  | '+' :: _ => .error .sign
  | '-' :: _ => .error .sign
  | digits =>
    match Integer.readNat base 0xFFFFFFFF digits with
    | .ok code => ofCode code
    | .error fault => .error (.number fault)

/-- The character of a name. -/
def named? (name : List Char) : Option Char :=
  [("lt", '<'), ("gt", '>'), ("amp", '&'), ("apos", '\''), ("quot", '"')].lookup
    (String.ofList name)

/-- The number of bytes of a text. -/
def size (text : List Char) : Nat :=
  text.foldl (fun bytes c => bytes + c.utf8Size) 0

/-- The character of the reference whose name begins at the offset `start`. -/
def resolve (start : Nat) (name : List Char) : Except Fault Char :=
  match name with
  | '#' :: 'x' :: digits => (readCode 16 digits).mapError .code
  | '#' :: digits => (readCode 10 digits).mapError .code
  | name =>
    match named? name with
    | some c => .ok c
    | none => .error (.unknownName start (start + size name) name)

/-- The character may stand in the name of a reference. -/
def isNameChar (c : Char) : Bool :=
  c != '&' && c != ';'

/-- What follows the end of a name is shorter than the text. -/
theorem length_lt_of_dropWhile_eq_cons {test : Char → Bool} {text rest : List Char} {c : Char}
    (h : text.dropWhile test = c :: rest) : rest.length < text.length := by
  have := (List.dropWhile_suffix test (l := text)).length_le
  rwa [h] at this

/-- Expands the rest of a text of `length` bytes, which begins at `offset`, after the expanded
characters `done` (last first). -/
def expandFrom (length offset : Nat) (done : List Char) : List Char → Except Fault (List Char)
  | [] => .ok done.reverse
  | c :: rest =>
    if c = '&' then
      let name := rest.takeWhile isNameChar
      match h : rest.dropWhile isNameChar with
      | ';' :: after =>
        have := length_lt_of_dropWhile_eq_cons h
        match resolve (offset + 1) name with
        | .ok c => expandFrom length (offset + size name + 2) (c :: done) after
        | .error fault => .error fault
      | _ => .error (.unterminated offset length)
    else expandFrom length (offset + c.utf8Size) (c :: done) rest
termination_by text => text.length
decreasing_by all_goals (simp only [List.length_cons]; omega)

/-- The text with its references replaced. -/
def expand (text : List Char) : Except Fault (List Char) :=
  expandFrom (size text) 0 [] text

end GraphScribe.Markup.Reference
