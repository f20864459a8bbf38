import GraphScribe.Lexicographic
import GraphScribe.Log
import GraphScribe.Log.ValuePattern
import GraphScribe.Text.Utf8

/-!
# Log filters

A filter says which records are told. Each of its rules sets the least important level for the
targets that begin with a text, or for all; it may want a record to have a field besides. For a
record the most specific rule counts: the one with the longest such text, and of these one that
names a field, and of these the one whose name comes last; of equal rules the later one.

A filter is written as rules with commas between them: a level, or a target, perhaps with a
selection between brackets, and perhaps with an equals sign and a level. A level is a name in upper
or lower case, or a number from 0 for nothing to 5 for everything. A selection names a span of work,
or a field between braces, or both; behind the name of a field its value may be asked for.
-/

namespace GraphScribe

/-- The least important level that is told, or nothing at all. -/
abbrev LogThreshold := Option LogLevel

namespace LogThreshold

/-- A record of a level is told. -/
def admits (threshold : LogThreshold) (level : LogLevel) : Bool :=
  match threshold with
  | none => false
  | some least => level.rank ≤ least.rank

/-- The thresholds by their numbers. -/
def ofNumber? : Nat → Option LogThreshold
  | 0 => some none
  | 1 => some (some .error)
  | 2 => some (some .warn)
  | 3 => some (some .info)
  | 4 => some (some .debug)
  | 5 => some (some .trace)
  | _ => none

/-- The thresholds by their names. -/
def ofName? (name : String) : Option LogThreshold :=
  match name with
  | "off" => some none
  | "error" => some (some .error)
  | "warn" => some (some .warn)
  | "info" => some (some .info)
  | "debug" => some (some .debug)
  | "trace" => some (some .trace)
  | _ => none

/-- The threshold of a text. -/
def read (text : List Char) : Option LogThreshold :=
  match Integer.readNat 10 0xFFFFFFFFFFFFFFFF text with
  | .ok n => ofNumber? n
  | .error _ => ofName? (String.ofList (text.map Char.toLower))

end LogThreshold

/-! ## Rules -/

/-- What a rule says about a field: that there is one with this name, or even with some value. -/
structure LogField where
  name : List Char
  value : Option (List Char) := none
deriving DecidableEq, Repr

/-- The field of a text: a name, perhaps with an equals sign and a pattern, up to the next one. -/
def LogField.read (text : List Char) : Option LogField :=
  let name := text.takeWhile (· != '=')
  match text.dropWhile (· != '=') with
  | [] => if text.isEmpty then none else some { name }
  | _ :: behind =>
    let value := behind.takeWhile (· != '=')
    if isValuePattern value then some { name, value } else none

/-- A rule of a filter. -/
structure LogRule where
  /-- What the targets begin with. -/
  target : List Char := []
  /-- The name of the span in which the work is done. -/
  span : Option (List Char) := none
  field : Option LogField := none
  threshold : LogThreshold
deriving DecidableEq, Repr

namespace LogRule

/-- The rule is about a record. There are no spans of work, and it is only for spans that the values
of fields are looked at. -/
def covers (rule : LogRule) (r : LogRecord) : Bool :=
  rule.target.isPrefixOf r.target.toList && rule.span.isNone &&
    match rule.field with
    | none => true
    | some field => field.value.isNone && r.hasField field.name

/-- The order of names; what has none comes first. -/
def nameBefore : Option (List Char) → Option (List Char) → Bool
  | none, _ => true
  | some _, none => false
  | some a, some b => listBefore (fun c d => c.toNat.ble d.toNat) a b

/-- Of two rules about a record, the second one is at least as specific: its target is longer, or as
long and the name of its field is not before the other one's. -/
def yieldsTo (rule other : LogRule) : Bool :=
  rule.target.length < other.target.length ||
    (rule.target.length == other.target.length &&
      nameBefore (rule.field.map (·.name)) (other.field.map (·.name)))

/-- The character may stand at the front of a rule. -/
def mayBegin (c : Char) : Bool :=
  c == '-' || c == ':' || c == '_' || Text.isAlphabetic c || Text.isNumeric c

/-- The part of a text between two places. -/
def between (text : Bytes) (start stop : Nat) : Option (List Char) :=
  (Utf8.decode ((text.drop start).take (stop - start))).toOption

/-- The level that a rule ends in, from a place on. Without one it tells everything. -/
def readLevel (text : Bytes) (start : Nat) : Option LogThreshold :=
  match text.drop start with
  | [] => some (some .trace)
  | level => (Utf8.decode level).toOption.bind LogThreshold.read

/-- The span and the field that a rule has between brackets, and the place after them. -/
def readSelection (text shown : Bytes) (start : Nat) :
    Option (Option (List Char) × Option LogField × Nat) :=
  let name := (shown.drop start).takeWhile fun b => b != ']'.toUInt8 && b != '\x7b'.toUInt8
  let stop := start + name.length
  if shown[stop]? = some ']'.toUInt8 then do
    return (some (← between text start stop), none, stop + 1)
  else do
    let inner := (shown.drop (stop + 1)).takeWhile (· != '\x7d'.toUInt8)
    let last := stop + 1 + inner.length
    if (shown.drop last).take 2 = ['\x7d'.toUInt8, ']'.toUInt8] then
      let span ← between text start stop
      let field ← LogField.read (← between text (stop + 1) last)
      return (if span.isEmpty then none else some span, some field, last + 2)
    else none

/-- The rule with a target whose selection between brackets begins at a place. -/
def readSelective (target : List Char) (text shown : Bytes) (start : Nat) : Option LogRule := do
  let (span, field, next) ← readSelection text shown start
  if shown.length ≤ next then return { target, span, field, threshold := some .trace }
  else if shown[next]? = some '='.toUInt8 then
    return { target, span, field, threshold := ← readLevel text (next + 1) }
  else none

/-- The rule of a text. Its parts are found in the text without the blanks at its ends, but are then
taken from the same places of the text with them; a place is an offset in bytes. -/
def read (text : List Char) : Option LogRule :=
  let whole := Utf8.encode text
  let shown := Utf8.encode (Text.trim text)
  match Text.trim text with
  | [] => none
  | '[' :: _ => readSelective [] whole shown 1
  | first :: _ =>
    if !mayBegin first then none
    else
      let stop := (shown.takeWhile fun b => b != '='.toUInt8 && b != '['.toUInt8).length
      if shown.length ≤ stop then
        match LogThreshold.read text with
        | some threshold => some { threshold }
        | none => some { target := text, threshold := some .trace }
      else do
        let target ← between whole 0 stop
        if shown[stop]? = some '='.toUInt8 then
          return { target, threshold := ← readLevel whole (stop + 1) }
        else readSelective target whole shown (stop + 1)

end LogRule

/-- The rules of a filter. -/
abbrev LogFilter := List LogRule

namespace LogFilter

/-- Of two rules about a record, the more specific one, or else the later one. -/
def stronger (chosen : Option LogRule) (rule : LogRule) : Option LogRule :=
  match chosen with
  | none => some rule
  | some other => if other.yieldsTo rule then some rule else some other

/-- The rule that counts for a record. -/
def ruleFor? (filter : LogFilter) (r : LogRecord) : Option LogRule :=
  (filter.filter (·.covers r)).foldl stronger none

/-- A record is told. -/
def admits (filter : LogFilter) (r : LogRecord) : Bool :=
  match filter.ruleFor? r with
  | none => false
  | some rule => rule.threshold.admits r.level

/-- The filter that tells records of all targets down to a level. -/
def ofLevel (level : LogLevel) : LogFilter := [{ threshold := some level }]

/-- The texts between commas. -/
def pieces : List Char → List (List Char)
  | [] => [[]]
  | c :: rest =>
    if c = ',' then [] :: pieces rest
    else
      match pieces rest with
      | [] => [[c]]
      | piece :: others => (c :: piece) :: others

/-- The filter of a text. One without rules tells errors. -/
def read (text : String) : Option LogFilter := do
  let rules ← ((pieces text.toList).filter (!·.isEmpty)).mapM LogRule.read
  return if rules.isEmpty then ofLevel .error else rules

/-- The lines of the records that are told. -/
def lines (filter : LogFilter) (records : List LogRecord) : List String :=
  (records.filter filter.admits).map (·.line ++ "\n")

end LogFilter
end GraphScribe
