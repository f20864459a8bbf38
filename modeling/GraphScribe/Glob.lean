import GraphScribe.Text.Utf8

/-!
# Glob patterns

A pattern stands for a set of paths. `?` stands for one byte and `*` for any number of them, but for
no slash; a class in brackets stands for one byte of a set; braces hold alternatives. `**` stands
for any number of directories where it is a whole component: at the front, between slashes, or at
the end, where at least one entry has to follow. A backslash takes the meaning off the character
after it.

Paths are matched byte by byte, so a character beyond ASCII in a class stands for any of its bytes.
-/

namespace GraphScribe

/-- Why a text is not a pattern. -/
inductive GlobFault where
  | unclosedClass
  | unclosedBraces
  | unopenedBraces
  /-- The range `low-high` is empty. -/
  | emptyRange (low high : Char)
  | danglingEscape
deriving DecidableEq, Repr

/-- What is wrong with a pattern. -/
def GlobFault.message : GlobFault → String
  | .unclosedClass => "unclosed character class; missing ']'"
  | .unclosedBraces =>
    "unclosed alternate group; missing '\x7d' (maybe escape '\x7b' with '[\x7b]'?)"
  | .unopenedBraces =>
    "unopened alternate group; missing '\x7b' (maybe escape '\x7d' with '[\x7d]'?)"
  | .emptyRange low high => s!"invalid range; '{low}' > '{high}'"
  | .danglingEscape => "dangling '\\'"

/-- A part of a pattern. -/
inductive GlobToken where
  | literal (c : Char)
  /-- One byte, but no slash. -/
  | any
  /-- Any bytes without a slash. -/
  | star
  /-- One byte of the ranges, or one that is in none of them. -/
  | oneOf (negated : Bool) (ranges : List (Char × Char))
  /-- Directories at the front, or none. -/
  | leading
  /-- A slash, or directories between slashes. -/
  | between
  /-- A slash and anything after it. -/
  | trailing
  /-- One of several patterns; if there are none, nothing. -/
  | choice (branches : List (List GlobToken))

/-- A pattern. -/
abbrev Glob := List GlobToken

namespace Glob

/-! ## Reading -/

/-- Reads a class up to its closing bracket: `ranges` are the ranges so far, the last one first, and
`dash` says whether a dash follows them. The first character always stands for itself. -/
def readRanges (ranges : List (Char × Char)) (dash : Bool) :
    List Char → Except GlobFault (List (Char × Char) × List Char)
  | [] => .error .unclosedClass
  | c :: rest =>
    match ranges with
    | [] => readRanges [(c, c)] false rest
    | (low, high) :: others =>
      if c = ']' then
        .ok ((if dash then ('-', '-') :: (low, high) :: others else (low, high) :: others).reverse,
          rest)
      else if dash then
        if c < low then .error (.emptyRange low c) else readRanges ((low, c) :: others) false rest
      else if c = '-' then readRanges ((low, high) :: others) true rest
      else readRanges ((c, c) :: (low, high) :: others) false rest

theorem readRanges_length {ranges ranges' : List (Char × Char)} {dash : Bool}
    {text rest : List Char} (h : readRanges ranges dash text = .ok (ranges', rest)) :
    rest.length < text.length := by
  fun_induction readRanges ranges dash text <;> grind

/-- Reads the class after an opening bracket. -/
def readClass (text : List Char) : Except GlobFault (GlobToken × List Char) :=
  match text with
  | '!' :: rest => (readRanges [] false rest).map fun (ranges, rest) => (.oneOf true ranges, rest)
  | '^' :: rest => (readRanges [] false rest).map fun (ranges, rest) => (.oneOf true ranges, rest)
  | text => (readRanges [] false text).map fun (ranges, rest) => (.oneOf false ranges, rest)

theorem readClass_length {text rest : List Char} {token : GlobToken}
    (h : readClass text = .ok (token, rest)) : rest.length < text.length := by
  have map_ok {α β : Type} {f : α → β} {x : Except GlobFault α} {b : β}
      (h : x.map f = .ok b) : ∃ a, x = .ok a ∧ f a = b := by
    cases x <;> simp_all [Except.map]
  unfold readClass at h
  split at h <;>
    obtain ⟨⟨ranges, rest'⟩, read, eq⟩ := map_ok h <;>
    have := readRanges_length read <;>
    grind

/-- The pattern stands for nothing but the empty text, and visibly so. -/
def isVoid (tokens : List GlobToken) : Bool :=
  tokens.all fun
    | .choice [] => true
    | _ => false

/-- Braces that are still open: the complete branches, and the one before each inner opening brace
or at the end, all with the last part first. -/
structure Group where
  branches : List (List GlobToken) := []
  current : List GlobToken := []

namespace Group

/-- Adds a part to the current branch. -/
def push (g : Group) (token : GlobToken) : Group :=
  { g with current := token :: g.current }

/-- Ends the current branch. -/
def endBranch (g : Group) : Group :=
  { branches := g.current.reverse :: g.branches }

/-- The choice between the branches. Void branches do not count. -/
def close (g : Group) : GlobToken :=
  .choice (g.endBranch.branches.reverse.filter (!isVoid ·))

end Group

/-- What two stars stand for: `before` is the character before them, `current` the branch so far,
and `rest` the text after them. The branch with them, and the text that is left. -/
def readStars (inBraces : Bool) (before : Option Char) (current : List GlobToken)
    (rest : List Char) : List GlobToken × List Char :=
  let afterSlash :=
    before == some '/' || (inBraces && (before == some ',' || before == some '\x7b'))
  match current, rest with
  | [], [] => ([.leading], [])
  | [], '/' :: rest => ([.leading], rest)
  | last :: earlier, rest =>
    let keep (token : GlobToken) : List GlobToken :=
      match last with
      | .leading => .leading :: earlier
      | _ => token :: earlier
    if afterSlash then
      match rest with
      | [] => (keep .trailing, [])
      | '/' :: rest => (keep .between, rest)
      | ',' :: _ => (if inBraces then keep .trailing else .star :: current, rest)
      | '\x7d' :: _ => (if inBraces then keep .trailing else .star :: current, rest)
      | _ => (.star :: current, rest)
    else (.star :: current, rest)
  | [], rest => ([.star], rest)

theorem readStars_length (inBraces : Bool) (before : Option Char) (current : List GlobToken)
    (rest : List Char) : (readStars inBraces before current rest).2.length ≤ rest.length := by
  unfold readStars
  grind

/-- The character before the text that is left after two stars. -/
def beforeRest (rest left : List Char) : Option Char :=
  some (if left.length < rest.length then '/' else '*')

/-- Reads a text: `group` is what the innermost open braces hold so far, `outer` the same for the
braces around them, and `before` the character before the text. -/
def readFrom (outer : List Group) (group : Group) (before : Option Char) :
    List Char → Except GlobFault Glob
  | [] => if outer.isEmpty then .ok group.current.reverse else .error .unclosedBraces
  | '?' :: rest => readFrom outer (group.push .any) (some '?') rest
  | '*' :: '*' :: rest =>
    let after := readStars (!outer.isEmpty) before group.current rest
    have := readStars_length (!outer.isEmpty) before group.current rest
    readFrom outer { group with current := after.1 } (beforeRest rest after.2) after.2
  | '*' :: rest => readFrom outer (group.push .star) (some '*') rest
  | '[' :: rest =>
    match h : readClass rest with
    | .error e => .error e
    | .ok (token, left) =>
      have := readClass_length h
      readFrom outer (group.push token) (some ']') left
  | '\x7b' :: rest => readFrom (group :: outer) {} (some '\x7b') rest
  | '\x7d' :: rest =>
    match outer with
    | [] => .error .unopenedBraces
    | around :: outer => readFrom outer (around.push group.close) (some '\x7d') rest
  | ',' :: rest =>
    if outer.isEmpty then readFrom outer (group.push (.literal ',')) (some ',') rest
    else readFrom outer group.endBranch (some ',') rest
  | ['\\'] => .error .danglingEscape
  | '\\' :: c :: rest => readFrom outer (group.push (.literal c)) (some c) rest
  | c :: rest => readFrom outer (group.push (.literal c)) (some c) rest
termination_by text => text.length
decreasing_by all_goals (simp only [List.length_cons]; omega)

/-- The pattern of a text. -/
def read (text : List Char) : Except GlobFault Glob :=
  readFrom [] {} none text

/-! ## Matching -/

/-- The suffixes of a byte string that are left after bytes without a slash. -/
def skipWithin : Bytes → List Bytes
  | [] => [[]]
  | b :: rest => (b :: rest) :: if b = 0x2F then [] else skipWithin rest

/-- All suffixes of a byte string. -/
def skipAny : Bytes → List Bytes
  | [] => [[]]
  | b :: rest => (b :: rest) :: skipAny rest

/-- The suffixes of a byte string that follow a slash. -/
def skipThroughSlash : Bytes → List Bytes
  | [] => []
  | b :: rest => if b = 0x2F then rest :: skipThroughSlash rest else skipThroughSlash rest

/-- The ranges of bytes that a range of characters stands for. -/
def byteRanges (low high : Char) : List (UInt8 × UInt8) :=
  let single (b : UInt8) := (b, b)
  let first := Utf8.encode [low]
  if low = high then first.map single
  else
    let last := Utf8.encode [high]
    match first.getLast?, last.head? with
    | some b, some b' =>
      first.dropLast.map single ++ (b, b') :: last.tail.map single
    | _, _ => []

/-- The class stands for a byte. -/
def classHolds (negated : Bool) (ranges : List (Char × Char)) (b : UInt8) : Bool :=
  let listed := ranges.any fun (low, high) =>
    (byteRanges low high).any fun (least, greatest) => least ≤ b && b ≤ greatest
  listed != negated

mutual

/-- A part stands for the front of a byte string, and `rest` accepts what is left. -/
def tokenAccepts : GlobToken → (Bytes → Bool) → Bytes → Bool
  | .literal c, rest, bytes =>
    let form := Utf8.encode [c]
    form.isPrefixOf bytes && rest (bytes.drop form.length)
  | .any, rest, bytes =>
    match bytes with
    | [] => false
    | b :: left => b != 0x2F && rest left
  | .star, rest, bytes => (skipWithin bytes).any rest
  | .oneOf negated ranges, rest, bytes =>
    match bytes with
    | [] => false
    | b :: left => classHolds negated ranges b && rest left
  | .leading, rest, bytes => rest bytes || (skipThroughSlash bytes).any rest
  | .between, rest, bytes =>
    match bytes with
    | [] => false
    | b :: left => b == 0x2F && (rest left || (skipThroughSlash left).any rest)
  | .trailing, rest, bytes =>
    match bytes with
    | [] => false
    | b :: left => b == 0x2F && (skipAny left).any rest
  | .choice [], rest, bytes => rest bytes
  | .choice (branch :: branches), rest, bytes => anyAccepts (branch :: branches) rest bytes

/-- A pattern stands for the front of a byte string, and `rest` accepts what is left. -/
def allAccept : List GlobToken → (Bytes → Bool) → Bytes → Bool
  | [], rest, bytes => rest bytes
  | token :: tokens, rest, bytes => tokenAccepts token (allAccept tokens rest) bytes

/-- One of several patterns stands for the front of a byte string; `rest` accepts what is left. -/
def anyAccepts : List (List GlobToken) → (Bytes → Bool) → Bytes → Bool
  | [], _, _ => false
  | branch :: branches, rest, bytes => allAccept branch rest bytes || anyAccepts branches rest bytes

end

/-- The pattern stands for a text. `**` alone stands for every text. -/
def accepts (glob : Glob) (text : List Char) : Bool :=
  match glob with
  | [.leading] => true
  | glob => allAccept glob List.isEmpty (Utf8.encode text)

end Glob
end GraphScribe
