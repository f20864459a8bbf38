import GraphScribe.Text.Quoted

/-!
# Log records

What the program tells about its work. A record has a level, the part of the program that it comes
from (its target), a message and perhaps fields. It is written on one line, without the characters
that a terminal may take for commands.
-/

namespace GraphScribe

/-- How important a record is, the most important first. -/
inductive LogLevel where
  | error
  | warn
  | info
  | debug
  | trace
deriving DecidableEq, Repr

namespace LogLevel

/-- The name of a level in a line. -/
def name : LogLevel → String
  | error => "ERROR"
  | warn => "WARN"
  | info => "INFO"
  | debug => "DEBUG"
  | trace => "TRACE"

/-- The number of a level: the more important it is, the smaller. -/
def rank : LogLevel → Nat
  | error => 1
  | warn => 2
  | info => 3
  | debug => 4
  | trace => 5

end LogLevel

/-- Something to tell. -/
structure LogRecord where
  level : LogLevel
  target : String
  message : String
  /-- Names with the texts of their values. -/
  fields : List (String × String) := []
deriving DecidableEq, Repr

namespace LogRecord

/-- The hexadecimal digits of a character, at least two. -/
def hexadecimal (c : Char) : List Char :=
  (if c.toNat < 0x10 then ['0'] else []) ++ Nat.toDigits 16 c.toNat

/-- A character of a message. One that a terminal may take for the beginning of a command is
escaped: by `\x` if it is ASCII, and by `\u` if it is a control beyond. -/
def harmless (c : Char) : List Char :=
  if c ∈ ['\x07', '\x08', '\x0c', '\x1b', '\x7f'] then ['\\', 'x'] ++ hexadecimal c
  else if 0x80 ≤ c.toNat && c.toNat ≤ 0x9F then
    ['\\', 'u', '\x7b'] ++ hexadecimal c ++ ['\x7d']
  else [c]

/-- The message in a form that no terminal takes for a command. -/
def shownMessage (r : LogRecord) : String :=
  String.ofList (r.message.toList.flatMap harmless)

/-- The line of a record. -/
def line (r : LogRecord) : String :=
  let fields := r.fields.map fun (name, value) => s!" {name}={value}"
  s!"{r.level.name} {r.target}: {r.shownMessage}{String.join fields}"

/-- A record has a field, if only the one that holds its message. -/
def hasField (r : LogRecord) (name : List Char) : Bool :=
  ("message" :: r.fields.map (·.1)).any (·.toList == name)

end LogRecord
end GraphScribe
