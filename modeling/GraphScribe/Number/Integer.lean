/-!
# Integers in text

Decimal text of integers, and reading integers of a bounded range in a base up to sixteen. A
reader reports the first thing that is wrong from left to right: a character that is no digit, or
the digit at which the value leaves the range.
-/

namespace GraphScribe.Integer

/-- The decimal text of an integer: a minus sign if it is negative, then digits without leading
zeros. -/
def text : Int → List Char
  | .ofNat n => Nat.toDigits 10 n
  | .negSucc n => '-' :: Nat.toDigits 10 (n + 1)

/-- The value of a digit in a base up to sixteen; letters count in either case. -/
def digit? (base : Nat) (c : Char) : Option Nat :=
  let value? :=
    if c.isDigit then some (c.toNat - '0'.toNat)
    else if 'a' ≤ c ∧ c ≤ 'f' then some (c.toNat - 'a'.toNat + 10)
    else if 'A' ≤ c ∧ c ≤ 'F' then some (c.toNat - 'A'.toNat + 10)
    else none
  value?.filter (· < base)

/-- Why a text is not an integer of the range. -/
inductive Fault where
  | empty
  | invalidDigit
  | tooLarge
  | tooSmall
deriving DecidableEq, Repr

/-- The text of a fault. -/
def Fault.message : Fault → String
  | .empty => "cannot parse integer from empty string"
  | .invalidDigit => "invalid digit found in string"
  | .tooLarge => "number too large to fit in target type"
  | .tooSmall => "number too small to fit in target type"

/-- Reads digits after the value `value`, which must not grow past `limit`. -/
def readDigits (base limit : Nat) (pastLimit : Fault) : Nat → List Char → Except Fault Nat
  | value, [] => .ok value
  | value, c :: rest =>
    match digit? base c with
    | none => .error .invalidDigit
    | some d =>
      if limit < value * base + d then .error pastLimit
      else readDigits base limit pastLimit (value * base + d) rest

/-- Reads a natural number up to `limit`: digits after an optional plus sign. -/
def readNat (base limit : Nat) : List Char → Except Fault Nat
  | [] => .error .empty
  | '+' :: [] => .error .invalidDigit
  | '+' :: rest => readDigits base limit .tooLarge 0 rest
  | text => readDigits base limit .tooLarge 0 text

/-- Reads a decimal integer of 64 bits: digits after an optional sign. -/
def readInt64 : List Char → Except Fault Int64
  | [] => .error .empty
  | ['+'] => .error .invalidDigit
  | ['-'] => .error .invalidDigit
  | '-' :: rest => (readDigits 10 0x8000000000000000 .tooSmall 0 rest).map fun n => Int64.ofInt (-n)
  | '+' :: rest => (readDigits 10 0x7FFFFFFFFFFFFFFF .tooLarge 0 rest).map fun n => Int64.ofInt n
  | text => (readDigits 10 0x7FFFFFFFFFFFFFFF .tooLarge 0 text).map fun n => Int64.ofInt n

end GraphScribe.Integer
