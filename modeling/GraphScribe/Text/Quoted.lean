import GraphScribe.Text.Unprintable
import GraphScribe.Text.Extender

/-!
# Quoted text

A text between double quotes, on one line and without characters that do not show: a quote, a
backslash, NUL, tab, line feed and carriage return have escapes of two characters, and any other
character that has no visible form of its own is `\u` with its code point between braces, in
hexadecimal without leading zeros.
-/

namespace GraphScribe.Text

/-- The written form of one character. -/
def escape (c : Char) : List Char :=
  match c with
  | '\x00' => ['\\', '0']
  | '\t' => ['\\', 't']
  | '\n' => ['\\', 'n']
  | '\r' => ['\\', 'r']
  | '"' => ['\\', '"']
  | '\\' => ['\\', '\\']
  | c =>
    if isExtender c || isUnprintable c then
      ['\\', 'u', '\x7b'] ++ Nat.toDigits 16 c.toNat ++ ['\x7d']
    else [c]

/-- The quoted form of a text. -/
def quote (text : List Char) : List Char :=
  '"' :: text.flatMap escape ++ ['"']

/-- The quoted form of a text, as a string. -/
def quoted (text : String) : String :=
  String.ofList (quote text.toList)

end GraphScribe.Text
