import GraphScribe.Number.Binary64.Reading
import GraphScribe.Number.Integer
import GraphScribe.Text.Alphabetic
import GraphScribe.Text.Blank
import GraphScribe.Text.Numeric

/-!
# Patterns of field values

What a log rule may say about the value of a field: a number, or a regular expression. No record is
ever compared with it, so all that counts is whether a text is one of them.

An expression has the usual constructs: alternatives, groups with or without a name or flags,
repetitions without a count, classes in brackets, and escapes. It stands for text and not for bytes,
and no tables of properties are at hand, which leaves some constructs without a meaning:

* in text mode (flag `u`, set at first), the classes by property, those of digits, blanks and words,
  the borders of words, and characters in either case;
* outside of it, whatever may stand for a byte that is no character.
-/

namespace GraphScribe.ValuePattern

/-! ## Flags -/

/-- The flags that change which constructs have a meaning. -/
structure Flags where
  /-- Letters stand for both of their cases. -/
  caseless : Bool := false
  /-- The expression is about characters and not about bytes. -/
  unicode : Bool := true
  /-- Blanks and comments are passed over. -/
  spaced : Bool := false
deriving DecidableEq, Repr

namespace Flags

/-- A flag is set or cleared; only the letters of flags change something. -/
def set (f : Flags) (letter : Char) (on : Bool) : Flags :=
  match letter with
  | 'i' => { f with caseless := on }
  | 'u' => { f with unicode := on }
  | 'x' => { f with spaced := on }
  | _ => f

/-- The letters of flags. -/
def letters : List Char := ['i', 'm', 's', 'U', 'u', 'R', 'x']

/-- A character may stand for itself. -/
def allowsLiteral (f : Flags) (c : Char) (isByte : Bool) : Bool :=
  if f.unicode then !f.caseless else !isByte || c.toNat < 0x80

/-- A character may stand for itself in a class. -/
def allowsMember (f : Flags) (c : Char) : Bool :=
  if f.unicode then !f.caseless else c.toNat < 0x80

/-- A class may stand for all characters but some. -/
def allowsNegation (f : Flags) : Bool := f.unicode

end Flags

/-- The text without the blanks and comments in front, while these are passed over. -/
def skipFiller (f : Flags) (inComment : Bool) : List Char → List Char
  | [] => []
  | c :: rest =>
    if !f.spaced then c :: rest
    else if inComment then skipFiller f (c != '\n') rest
    else if Text.isBlank c then skipFiller f false rest
    else if c = '#' then skipFiller f true rest
    else c :: rest

/-- The text without the blanks and comments in front. -/
def skip (f : Flags) (text : List Char) : List Char := skipFiller f false text

/-! ## Escapes -/

/-- What an escape stands for. -/
inductive Escape where
  /-- A character, perhaps given as a byte. -/
  | literal (c : Char) (isByte : Bool)
  /-- Digits, blanks or words, or everything else. -/
  | kind (negated : Bool)
  /-- The beginning or the end of the text. -/
  | anchor
  /-- The border of a word, or a place that is none. -/
  | border
deriving DecidableEq, Repr

/-- The character that a number of hexadecimal digits gives; blanks between them are passed over. -/
def readHexadecimal (f : Flags) (code : Nat) : (digits : Nat) → List Char →
    Option (Char × List Char)
  | 0, text => if h : code.isValidChar then some (Char.ofNatAux code h, text) else none
  | digits + 1, text =>
    match skip f text with
    | [] => none
    | c :: rest => do
      let d ← Integer.digit? 16 c
      readHexadecimal f (16 * code + d) digits rest

/-- The character is escaped to stand for itself: any one of ASCII but letters, digits and the two
angle brackets. -/
def isEscapable (c : Char) : Bool :=
  c.toNat < 0x80 && !c.isAlphanum && c != '<' && c != '>'

/-- The control character of a letter. -/
def control? : Char → Option Char
  | 'a' => some '\x07'
  | 'f' => some '\x0c'
  | 't' => some '\t'
  | 'n' => some '\n'
  | 'r' => some '\r'
  | 'v' => some '\x0b'
  | _ => none

/-- What follows a backslash. -/
def readEscape (f : Flags) : List Char → Option (Escape × List Char)
  | [] => none
  | 'x' :: rest => (readHexadecimal f 0 2 rest).map fun (c, rest) => (.literal c true, rest)
  | 'u' :: rest => (readHexadecimal f 0 4 rest).map fun (c, rest) => (.literal c false, rest)
  | 'U' :: rest => (readHexadecimal f 0 8 rest).map fun (c, rest) => (.literal c false, rest)
  | c :: rest =>
    if c ∈ ['d', 's', 'w'] then some (.kind false, rest)
    else if c ∈ ['D', 'S', 'W'] then some (.kind true, rest)
    else if c ∈ ['A', 'z'] then some (.anchor, rest)
    else if c ∈ ['b', 'B', '<', '>'] then some (.border, rest)
    else if isEscapable c then some (.literal c false, rest)
    else (control? c).map fun control => (.literal control false, rest)

/-- An escape has a meaning outside of classes. -/
def Escape.isItem (f : Flags) : Escape → Bool
  | literal c isByte => f.allowsLiteral c isByte
  | kind negated => !f.unicode && !negated
  | anchor => true
  | border => !f.unicode

/-! ## Classes -/

/-- The names of the classes of ASCII. -/
def asciiClasses : List String :=
  ["alnum", "alpha", "ascii", "blank", "cntrl", "digit", "graph", "lower", "print", "punct",
    "space", "upper", "word", "xdigit"]

/-- What follows a class of ASCII at the front of a text, such as `[:alpha:]` or `[:^alpha:]`; also
whether it is negated. -/
def asciiClass? (text : List Char) : Option (Bool × List Char) :=
  match text with
  | '[' :: ':' :: rest =>
    let (negated, rest) := match rest with
      | '^' :: rest => (true, rest)
      | rest => (false, rest)
    let name := rest.takeWhile (· != ':')
    match rest.dropWhile (· != ':') with
    | ':' :: ']' :: rest =>
      if asciiClasses.any (·.toList == name) then some (negated, rest) else none
    | _ => none
  | _ => none

/-- What follows the opening of a class: a caret, then hyphens or a closing bracket that stand for
themselves. -/
def openClass (f : Flags) (text : List Char) : Option (List Char) := do
  let text := skip f text
  let text ← match text with
    | '^' :: rest => if f.allowsNegation then some (skip f rest) else none
    | text => some text
  match text with
  | ']' :: rest => return skip f rest
  | '-' :: rest => return (skip f rest).dropWhile fun c => c == '-' || (f.spaced && Text.isBlank c)
  | text => return text

/-- A member of a class: a character, or a class without a bracket of its own. -/
def readMember (f : Flags) : List Char → Option (Option Char × List Char)
  | [] => none
  | '\\' :: rest => do
    match ← readEscape f rest with
    | (.literal c isByte, rest) =>
      if f.allowsLiteral c isByte && f.allowsMember c then return (some c, rest) else none
    | (.kind negated, rest) => if !f.unicode && !negated then return (none, rest) else none
    | _ => none
  | c :: rest => if f.allowsMember c then some (some c, rest) else none

/-- A member of a class, or a range from one character to another that is not before it. A hyphen
before another hyphen or the closing bracket makes no range. -/
def readRange (f : Flags) (text : List Char) : Option (List Char) := do
  let (first, rest) ← readMember f text
  match skip f rest with
  | '-' :: behind =>
    match skip f behind with
    | '-' :: _ | ']' :: _ => return skip f rest
    | behind =>
      match first, ← readMember f behind with
      | some a, (some b, rest) => if a.toNat ≤ b.toNat then return rest else none
      | _, _ => none
  | rest => return rest

/-- What follows a class, in which `depth` brackets are still open. -/
def readClass (f : Flags) : (fuel : Nat) → (depth : Nat) → List Char → Option (List Char)
  | 0, _, _ => none
  | fuel + 1, depth, text =>
    match skip f text with
    | ']' :: rest => if depth ≤ 1 then some rest else readClass f fuel (depth - 1) rest
    | '&' :: '&' :: rest => readClass f fuel depth rest
    | '-' :: '-' :: rest => readClass f fuel depth rest
    | '~' :: '~' :: rest => readClass f fuel depth rest
    | '[' :: rest =>
      match asciiClass? ('[' :: rest) with
      | some (negated, rest) =>
        if negated && !f.allowsNegation then none else readClass f fuel depth rest
      | none => (openClass f rest).bind (readClass f fuel (depth + 1))
    | text => (readRange f text).bind (readClass f fuel depth)

/-! ## Groups -/

/-- The character may stand in the name of a group, at its front or after that. -/
def isOfName (atFront : Bool) (c : Char) : Bool :=
  c == '_' || Text.isAlphabetic c ||
    (!atFront && (c ∈ ['.', '[', ']'] || Text.isNumeric c))

/-- The name of a group, and what follows the bracket that closes it. -/
def readName (text : List Char) : Option (List Char × List Char) :=
  let name := text.takeWhile (· != '>')
  match name, text.dropWhile (· != '>') with
  | first :: others, '>' :: rest =>
    if isOfName true first && others.all (isOfName false) then some (name, rest) else none
  | _, _ => none

/-- The flags between a question mark and a colon or a closing parenthesis: set ones, and after a
hyphen cleared ones. None may stand twice. Gives also whether a group follows, and the letters. -/
def readFlags (f : Flags) (on : Bool) (seen : List Char) : List Char →
    Option (Flags × Bool × List Char × List Char)
  | [] => none
  | c :: rest =>
    if c = ':' || c = ')' then
      if seen.head? = some '-' then none else some (f, c == ':', seen, rest)
    else if c ∈ seen then none
    else if c = '-' then readFlags f false (c :: seen) rest
    else if c ∈ Flags.letters then readFlags (f.set c on) on (c :: seen) rest
    else none

/-- What an opening parenthesis begins. -/
inductive Opening where
  /-- A group with its own flags, and with the names of the groups so far. -/
  | group (f : Flags) (names : List (List Char))
  /-- Flags for the rest of the group. -/
  | flags (f : Flags)

/-- What an opening parenthesis begins, among groups with some names. -/
def readOpening (f : Flags) (names : List (List Char)) (text : List Char) :
    Option (Opening × List Char) :=
  let named (text : List Char) : Option (Opening × List Char) := do
    let (name, rest) ← readName text
    if name ∈ names then none else return (.group f (name :: names), rest)
  match skip f text with
  | '?' :: 'P' :: '<' :: rest => named rest
  | '?' :: '<' :: rest => named rest
  | '?' :: rest => do
    match ← readFlags f true [] rest with
    | (f, true, _, rest) => return (.group f names, rest)
    | (_, false, [], _) => none
    | (f, false, _, rest) => return (.flags f, rest)
  | rest => some (.group f names, rest)

/-! ## Expressions -/

/-- Where a reader stands in an expression. -/
structure Place where
  flags : Flags := {}
  /-- The flags of the groups around. -/
  outer : List Flags := []
  names : List (List Char) := []
  /-- Something stands right before that may be repeated. -/
  repeatable : Bool := false

/-- The rest of an expression is well formed and has a meaning. -/
def accepts : (fuel : Nat) → Place → List Char → Bool
  | 0, _, _ => false
  | fuel + 1, p, text =>
    let afterItem (rest : List Char) : Bool := accepts fuel { p with repeatable := true } rest
    match skip p.flags text with
    | [] => p.outer.isEmpty
    | '(' :: rest =>
      match readOpening p.flags p.names rest with
      | none => false
      | some (.group flags names, rest) =>
        accepts fuel { flags, outer := p.flags :: p.outer, names } rest
      | some (.flags flags, rest) => accepts fuel { p with flags, repeatable := false } rest
    | ')' :: rest =>
      match p.outer with
      | [] => false
      | flags :: outer => accepts fuel { p with flags, outer, repeatable := true } rest
    | '|' :: rest => accepts fuel { p with repeatable := false } rest
    | '[' :: rest =>
      !(p.flags.unicode && p.flags.caseless) &&
        match (openClass p.flags rest).bind (readClass p.flags fuel 1) with
        | none => false
        | some rest => afterItem rest
    | '\\' :: rest =>
      match readEscape p.flags rest with
      | none => false
      | some (escape, rest) => escape.isItem p.flags && afterItem rest
    | c :: rest =>
      if c ∈ ['?', '*', '+'] then p.repeatable && afterItem rest
      else if c = '{' then false
      else if c = '.' then p.flags.unicode && afterItem rest
      else if c = '^' || c = '$' then afterItem rest
      else p.flags.allowsLiteral c false && afterItem rest

/-- The text is a regular expression. -/
def isExpression (text : List Char) : Bool := accepts (text.length + 1) {} text

/-- The text is a number: a count or an integer of 64 bits, or a floating-point number. -/
def isNumber (text : List Char) : Bool :=
  (Integer.readNat 10 0xFFFFFFFFFFFFFFFF text).toOption.isSome ||
    (Integer.readInt64 text).toOption.isSome || (Binary64.read text).toOption.isSome

end GraphScribe.ValuePattern

namespace GraphScribe

/-- The text can say what value a field has. -/
def isValuePattern (text : List Char) : Bool :=
  ValuePattern.isNumber text || ValuePattern.isExpression text

end GraphScribe
