import GraphScribe.Number.Integer

/-!
# Socket addresses

An address with a port, as four decimal octets or as eight hexadecimal groups in brackets. In the
second form one run of zero groups may be left out, and the last two groups may be written as
octets. The written form is canonical: lower case, no leading zeros, and the first of the longest
runs of at least two zero groups left out.
-/

namespace GraphScribe

/-- An address with a port. -/
inductive SocketAddress where
  | four (octets : List UInt8) (port : UInt16)
  | six (groups : List UInt16) (scope : UInt32) (port : UInt16)
deriving DecidableEq, Repr

namespace SocketAddress

/-! ## Reading -/

/-- A number in a base: its digits, at most `limit`, and what follows it. -/
def readNumber (base limit : Nat) (text : List Char) : Option (Nat × List Char × List Char) :=
  let isDigit (c : Char) := (Integer.digit? base c).isSome
  let digits := text.takeWhile isDigit
  match Integer.readDigits base limit .tooLarge 0 digits with
  | .ok value => if digits.isEmpty then none else some (value, digits, text.dropWhile isDigit)
  | .error _ => none

/-- An octet: up to three digits without leading zeros. -/
def readOctet (text : List Char) : Option (UInt8 × List Char) :=
  match readNumber 10 255 text with
  | some (value, digits, rest) =>
    if 3 < digits.length ∨ (1 < digits.length ∧ digits.head? = some '0') then none
    else some (.ofNat value, rest)
  | none => none

/-- The text after a character that has to stand at its front. -/
def readChar (c : Char) : List Char → Option (List Char)
  | [] => none
  | d :: rest => if c = d then some rest else none

/-- Four octets with points between them. -/
def readOctets (text : List Char) : Option (List UInt8 × List Char) := do
  let (a, text) ← readOctet text
  let (b, text) ← readOctet (← readChar '.' text)
  let (c, text) ← readOctet (← readChar '.' text)
  let (d, text) ← readOctet (← readChar '.' text)
  return ([a, b, c, d], text)

/-- Two octets as one group. -/
def groupOf (high low : UInt8) : UInt16 :=
  .ofNat (256 * high.toNat + low.toNat)

/-- A group: up to four hexadecimal digits. -/
def readGroup (text : List Char) : Option (UInt16 × List Char) :=
  match readNumber 16 0xFFFF text with
  | some (value, digits, rest) => if 4 < digits.length then none else some (.ofNat value, rest)
  | none => none

/-- Up to `left` groups with colons between them, of which the last two may be octets: the groups,
whether octets end them, and what follows them. -/
def readGroups (isFirst : Bool) : (left : Nat) → List Char → List UInt16 × Bool × List Char
  | 0, text => ([], false, text)
  | left + 1, text =>
    let item? := if isFirst then some text else readChar ':' text
    match item?.bind readOctets with
    | some ([a, b, c, d], rest) =>
      if 1 ≤ left then ([groupOf a b, groupOf c d], true, rest)
      else ([], false, text)
    | _ =>
      match item?.bind readGroup with
      | some (group, rest) =>
        let (groups, octets, rest) := readGroups false left rest
        (group :: groups, octets, rest)
      | none => ([], false, text)

/-- Eight groups, of which one run may be left out. -/
def readSix (text : List Char) : Option (List UInt16 × List Char) :=
  let (front, octets, rest) := readGroups true 8 text
  if front.length = 8 then some (front, rest)
  else if octets then none
  else
    match rest with
    | ':' :: ':' :: rest =>
      let (back, _, rest) := readGroups true (7 - front.length) rest
      some (front ++ List.replicate (8 - front.length - back.length) 0 ++ back, rest)
    | _ => none

/-- The scope after a percent sign; there is none if no number follows. -/
def readScope (text : List Char) : UInt32 × List Char :=
  match text with
  | '%' :: rest =>
    match readNumber 10 0xFFFFFFFF rest with
    | some (value, _, rest) => (.ofNat value, rest)
    | none => (0, text)
  | _ => (0, text)

/-- The port after a colon, at the end of the text. -/
def readPort (text : List Char) : Option UInt16 := do
  let (value, _, rest) ← readNumber 10 0xFFFF (← readChar ':' text)
  if rest.isEmpty then some (.ofNat value) else none

/-- Reads an address. -/
def read (text : List Char) : Option SocketAddress :=
  match text with
  | '[' :: text => do
    let (groups, text) ← readSix text
    let (scope, text) := readScope text
    return .six groups scope (← readPort (← readChar ']' text))
  | text => do
    let (octets, text) ← readOctets text
    return .four octets (← readPort text)

/-! ## Writing -/

/-- Texts with a separator between them. -/
def joined (separator : Char) : List (List Char) → List Char
  | [] => []
  | [text] => text
  | text :: rest => text ++ separator :: joined separator rest

/-- Octets with points between them. -/
def octetsText (octets : List UInt8) : List Char :=
  joined '.' (octets.map fun octet => Nat.toDigits 10 octet.toNat)

/-- Groups with colons between them. -/
def groupsText (groups : List UInt16) : List Char :=
  joined ':' (groups.map fun group => Nat.toDigits 16 group.toNat)

/-- The first of the longest runs of zeros: its start and its length. -/
def longestZeros (groups : List UInt16) : Nat × Nat :=
  let runAt (i : Nat) := ((groups.drop i).takeWhile (· == 0)).length
  (List.range groups.length).foldl
    (fun best i => if best.2 < runAt i then (i, runAt i) else best) (0, 0)

/-- The address that eight groups stand for. An embedded address of four octets is shown as such. -/
def sixText (groups : List UInt16) : List Char :=
  match groups with
  | [0, 0, 0, 0, 0, 0xFFFF, high, low] =>
    let octets (group : UInt16) : List UInt8 := [(group >>> 8).toUInt8, group.toUInt8]
    "::ffff:".toList ++ octetsText (octets high ++ octets low)
  | groups =>
    let (start, length) := longestZeros groups
    if 1 < length then
      groupsText (groups.take start) ++ [':', ':'] ++ groupsText (groups.drop (start + length))
    else groupsText groups

/-- The written form of an address. -/
def text : SocketAddress → List Char
  | .four octets port => octetsText octets ++ ':' :: Nat.toDigits 10 port.toNat
  | .six groups scope port =>
    let scopeText := if scope = 0 then [] else '%' :: Nat.toDigits 10 scope.toNat
    '[' :: sixText groups ++ scopeText ++ [']', ':'] ++ Nat.toDigits 10 port.toNat

end SocketAddress
end GraphScribe
