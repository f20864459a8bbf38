import GraphScribe.Number.Integer

/-!
# Settings text

Settings are written in the part of TOML that they need: entries with bare, quoted or dotted keys,
tables, comments, and values that are texts, integers, arrays or inline tables. Numbers with a
fraction, truth values, dates and arrays of tables are no values of settings, and are refused like
malformed text.

A document is first read into statements, one after the other, and these are then collected into one
table. No key may be given twice.
-/

namespace GraphScribe.Toml

/-- A part of a key. -/
abbrev Key := List Char

/-- A value. The entries of an inline table are kept as they are written. -/
inductive Value where
  | string (text : List Char)
  | integer (value : Int)
  | array (items : List Value)
  | table (entries : List (List Key × Value))

/-- A statement of a document. -/
inductive Statement where
  /-- The following entries belong to a table. -/
  | header (path : List Key)
  | entry (path : List Key) (value : Value)

/-! ## Blanks and comments -/

/-- A space or a tab. -/
def isBlank (c : Char) : Bool := c == ' ' || c == '\t'

/-- A character that may stand in comments and texts: no control but the tab. -/
def isVisible (c : Char) : Bool :=
  c == '\t' || (0x20 ≤ c.toNat && c.toNat != 0x7F)

/-- The text without the blanks in front. -/
def skipBlanks (text : List Char) : List Char := text.dropWhile isBlank

/-- What follows the line break at the front of a text. -/
def lineBreak? : List Char → Option (List Char)
  | '\n' :: rest => some rest
  | '\r' :: '\n' :: rest => some rest
  | _ => none

/-- The text without the blanks, line breaks and comments in front. -/
def skipFiller (inComment : Bool) : List Char → List Char
  | [] => []
  | c :: rest =>
    if c = '\n' then skipFiller false rest
    else if c = '\r' then
      match rest with
      | '\n' :: rest => skipFiller false rest
      | _ => c :: rest
    else if inComment then if isVisible c then skipFiller true rest else c :: rest
    else if isBlank c then skipFiller false rest
    else if c = '#' then skipFiller true rest
    else c :: rest

/-- What follows the end of a line, before which blanks and a comment may stand. -/
def lineEnd? (text : List Char) : Option (List Char) :=
  let afterComment := match skipBlanks text with
    | '#' :: rest => rest.dropWhile isVisible
    | rest => rest
  if afterComment.isEmpty then some [] else lineBreak? afterComment

/-! ## Texts -/

/-- The character of a code that is written in hexadecimal digits. -/
def codeChar? (digits : List Char) : Option Char := do
  let values ← digits.mapM (Integer.digit? 16)
  let code := values.foldl (fun code d => 16 * code + d) 0
  if h : code.isValidChar then some (Char.ofNatAux code h) else none

/-- The character of an escape that is one letter long. -/
def escaped? : Char → Option Char
  | 'b' => some '\x08'
  | 't' => some '\t'
  | 'n' => some '\n'
  | 'f' => some '\x0c'
  | 'r' => some '\r'
  | '"' => some '"'
  | '\\' => some '\\'
  | _ => none

/-- The rest of a text on one line, with escapes, after the characters `done` (last first). -/
def readBasic (done : List Char) : List Char → Option (List Char × List Char)
  | '"' :: rest => some (done.reverse, rest)
  | '\\' :: 'u' :: a :: b :: c :: d :: rest => do
    readBasic ((← codeChar? [a, b, c, d]) :: done) rest
  | '\\' :: 'U' :: a :: b :: c :: d :: e :: f :: g :: h :: rest => do
    readBasic ((← codeChar? [a, b, c, d, e, f, g, h]) :: done) rest
  | '\\' :: c :: rest => do readBasic ((← escaped? c) :: done) rest
  | c :: rest => if isVisible c && c != '\\' then readBasic (c :: done) rest else none
  | [] => none

/-- The rest of a text on one line without escapes. -/
def readLiteral (text : List Char) : Option (List Char × List Char) :=
  let isInner (c : Char) := isVisible c && c != '\''
  match text.dropWhile isInner with
  | '\'' :: rest => some (text.takeWhile isInner, rest)
  | _ => none

/-- Up to two quotes before the closing three belong to the text. -/
def closeLines (quote : Char) (done rest : List Char) : List Char × List Char :=
  let extra := (rest.takeWhile (· == quote)).take 2
  (done.reverse ++ extra, rest.drop extra.length)

/-- A backslash at the end of a line joins it with the next text, whatever blanks and line breaks
come between. -/
def joinsLines (rest : List Char) : Bool := (lineBreak? (skipBlanks rest)).isSome

/-- The rest of a text on several lines, with escapes, after the characters `done` (last first).
While `joining`, blanks and line breaks are passed over. -/
def readLines (joining : Bool) (done : List Char) : List Char → Option (List Char × List Char)
  | '"' :: '"' :: '"' :: rest => some (closeLines '"' done rest)
  | '\\' :: 'u' :: a :: b :: c :: d :: rest => do
    readLines false ((← codeChar? [a, b, c, d]) :: done) rest
  | '\\' :: 'U' :: a :: b :: c :: d :: e :: f :: g :: h :: rest => do
    readLines false ((← codeChar? [a, b, c, d, e, f, g, h]) :: done) rest
  | '\\' :: c :: rest =>
    if joinsLines (c :: rest) then readLines true done (c :: rest)
    else do readLines false ((← escaped? c) :: done) rest
  | '\r' :: '\n' :: rest => readLines joining (if joining then done else '\n' :: done) rest
  | c :: rest =>
    if c = '\n' then readLines joining (if joining then done else c :: done) rest
    else if joining && isBlank c then readLines true done rest
    else if isVisible c && c != '\\' then readLines false (c :: done) rest
    else none
  | [] => none

/-- The rest of a text on several lines without escapes. -/
def readLiteralLines (done : List Char) : List Char → Option (List Char × List Char)
  | '\'' :: '\'' :: '\'' :: rest => some (closeLines '\'' done rest)
  | '\r' :: '\n' :: rest => readLiteralLines ('\n' :: done) rest
  | c :: rest => if c = '\n' || isVisible c then readLiteralLines (c :: done) rest else none
  | [] => none

/-- A line break right after three opening quotes does not count. -/
def skipLineBreak (text : List Char) : List Char := (lineBreak? text).getD text

/-- A text. -/
def readString : List Char → Option (List Char × List Char)
  | '"' :: '"' :: '"' :: rest => readLines false [] (skipLineBreak rest)
  | '"' :: rest => readBasic [] rest
  | '\'' :: '\'' :: '\'' :: rest => readLiteralLines [] (skipLineBreak rest)
  | '\'' :: rest => readLiteral rest
  | _ => none

/-! ## Integers -/

/-- Digits that follow a digit; single underscores may stand between them. -/
def readDigits (base : Nat) : List Char → List Char × List Char
  | '_' :: c :: rest =>
    if (Integer.digit? base c).isSome then
      let (digits, rest) := readDigits base rest
      (c :: digits, rest)
    else ([], '_' :: c :: rest)
  | c :: rest =>
    if (Integer.digit? base c).isSome then
      let (digits, rest) := readDigits base rest
      (c :: digits, rest)
    else ([], c :: rest)
  | [] => ([], [])

/-- The magnitude of an integer, up to `limit`. A decimal one begins with a zero only if it is
zero. -/
def readMagnitude (base limit : Nat) (text : List Char) : Option (Nat × List Char) :=
  match text with
  | [] => none
  | first :: rest =>
    if (Integer.digit? base first).isNone then none
    else
      let (more, rest) := if base = 10 ∧ first = '0' then ([], rest) else readDigits base rest
      match Integer.readDigits base limit .tooLarge 0 (first :: more) with
      | .ok value => some (value, rest)
      | .error _ => none

/-- An integer of 64 bits: decimal with an optional sign, or without one in another base. -/
def readInteger (text : List Char) : Option (Int × List Char) :=
  let positive := 0x7FFFFFFFFFFFFFFF
  let read (base limit : Nat) (text : List Char) (sign : Int) : Option (Int × List Char) :=
    (readMagnitude base limit text).map fun (value, rest) => (sign * value, rest)
  match text with
  | '0' :: 'x' :: rest => read 16 positive rest 1
  | '0' :: 'o' :: rest => read 8 positive rest 1
  | '0' :: 'b' :: rest => read 2 positive rest 1
  | '-' :: rest => read 10 0x8000000000000000 rest (-1)
  | '+' :: rest => read 10 positive rest 1
  | text => read 10 positive text 1

/-! ## Keys and values -/

/-- A character of a bare key. -/
def isBare (c : Char) : Bool := c.isAlphanum || c == '-' || c == '_'

/-- One part of a key. -/
def readKeyPart (text : List Char) : Option (Key × List Char) :=
  match text with
  | '"' :: rest => readBasic [] rest
  | '\'' :: rest => readLiteral rest
  | text =>
    let key := text.takeWhile isBare
    if key.isEmpty then none else some (key, text.dropWhile isBare)

/-- A key: parts with points between them, and blanks around. -/
def readKey : (fuel : Nat) → List Char → Option (List Key × List Char)
  | 0, _ => none
  | fuel + 1, text => do
    let (part, rest) ← readKeyPart (skipBlanks text)
    match skipBlanks rest with
    | '.' :: rest => do
      let (parts, rest) ← readKey fuel rest
      return (part :: parts, rest)
    | rest => return ([part], rest)

mutual

/-- A value. -/
def readValue : (fuel : Nat) → List Char → Option (Value × List Char)
  | 0, _ => none
  | fuel + 1, text =>
    match text with
    | '[' :: rest => (readItems fuel rest).map fun (items, rest) => (.array items, rest)
    | '{' :: rest =>
      match skipBlanks rest with
      | '}' :: rest => some (.table [], rest)
      | rest => (readEntries fuel rest).map fun (entries, rest) => (.table entries, rest)
    | text =>
      match readString text with
      | some (value, rest) => some (.string value, rest)
      | none => (readInteger text).map fun (value, rest) => (.integer value, rest)

/-- The items of an array up to its end. A comma may follow the last one. -/
def readItems : (fuel : Nat) → List Char → Option (List Value × List Char)
  | 0, _ => none
  | fuel + 1, text =>
    match skipFiller false text with
    | ']' :: rest => some ([], rest)
    | text => do
      let (item, rest) ← readValue fuel text
      match skipFiller false rest with
      | ']' :: rest => some ([item], rest)
      | ',' :: rest => do
        let (items, rest) ← readItems fuel rest
        return (item :: items, rest)
      | _ => none

/-- The entries of an inline table up to its end, of which there is at least one. -/
def readEntries : (fuel : Nat) → List Char → Option (List (List Key × Value) × List Char)
  | 0, _ => none
  | fuel + 1, text => do
    let (entry, rest) ← readEntry fuel text
    match skipBlanks rest with
    | '}' :: rest => some ([entry], rest)
    | ',' :: rest => do
      let (entries, rest) ← readEntries fuel rest
      return (entry :: entries, rest)
    | _ => none

/-- A key with its value. -/
def readEntry : (fuel : Nat) → List Char → Option ((List Key × Value) × List Char)
  | 0, _ => none
  | fuel + 1, text => do
    match ← readKey text.length text with
    | (path, '=' :: rest) => do
      let (value, rest) ← readValue fuel (skipBlanks rest)
      return ((path, value), rest)
    | _ => none

end

/-! ## Documents -/

/-- A statement up to the end of its line. -/
def readStatement (text : List Char) : Option (Statement × List Char) :=
  match text with
  | '[' :: rest => do
    match ← readKey rest.length rest with
    | (path, ']' :: rest) => return (.header path, ← lineEnd? rest)
    | _ => none
  | text => do
    let ((path, value), rest) ← readEntry (2 * text.length + 2) text
    return (.entry path value, ← lineEnd? rest)

/-- The statements of a text, of which there are fewer than `fuel`. -/
def readStatements : (fuel : Nat) → List Char → Option (List Statement)
  | 0, _ => none
  | fuel + 1, text =>
    match skipFiller false text with
    | [] => some []
    | text => do
      let (statement, rest) ← readStatement text
      return statement :: (← readStatements fuel rest)

/-- How a table came to be. -/
inductive Origin where
  /-- By a header of its own. -/
  | header
  /-- By the header of a table in it. -/
  | innerHeader
  /-- By a dotted key. -/
  | dottedKey
deriving DecidableEq

/-- What a key stands for. -/
inductive Item where
  | value (value : Value)
  | table (origin : Origin) (entries : List (Key × Item))

/-- Keys with what they stand for. -/
abbrev Entries := List (Key × Item)

/-- Replaces what a key stands for, or adds the key. -/
def update (key : Key) (change : Option Item → Option Item) : Entries → Option Entries
  | [] => (change none).map fun item => [(key, item)]
  | (k, item) :: rest =>
    if k = key then (change (some item)).map fun item => (k, item) :: rest
    else (update key change rest).map ((k, item) :: ·)

/-- Adds a value under a key. Its points lead through tables that dotted keys made. -/
def addValue (value : Value) : List Key → Entries → Option Entries
  | [], _ => none
  | [key], entries =>
    entries |> update key fun
      | none => some (.value value)
      | some _ => none
  | key :: path, entries =>
    entries |> update key fun
      | none => (addValue value path []).map (.table .dottedKey ·)
      | some (.table .dottedKey inner) => (addValue value path inner).map (.table .dottedKey ·)
      | some _ => none

/-- Opens a table by a header. A table has at most one header of its own. -/
def openTable : List Key → Entries → Option Entries
  | [], _ => none
  | [key], entries =>
    entries |> update key fun
      | none => some (.table .header [])
      | some (.table .innerHeader inner) => some (.table .header inner)
      | some _ => none
  | key :: path, entries =>
    entries |> update key fun
      | none => (openTable path []).map (.table .innerHeader ·)
      | some (.table origin inner) => (openTable path inner).map (.table origin ·)
      | some (.value _) => none

/-- Adds a value under a key of the table at a path. -/
def addValueIn (path : List Key) (value : Value) : (table : List Key) → Entries → Option Entries
  | [], entries => addValue value path entries
  | key :: table, entries =>
    entries |> update key fun
      | some (.table origin inner) => (addValueIn path value table inner).map (.table origin ·)
      | _ => none

/-- Collects statements into entries; `table` is where they belong. -/
def collect (table : List Key) (entries : Entries) : List Statement → Option Entries
  | [] => some entries
  | .header path :: rest => (openTable path entries).bind fun entries => collect path entries rest
  | .entry path value :: rest =>
    (addValueIn path value table entries).bind fun entries => collect table entries rest

/-- The entries of a document. A byte order mark in front does not count. -/
def read (text : List Char) : Option Entries :=
  let text := match text with
    | '\uFEFF' :: rest => rest
    | text => text
  (readStatements (text.length + 1) text).bind (collect [] [])

end GraphScribe.Toml
