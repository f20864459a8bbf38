import GraphScribe.Number.Binary64

/-!
# Reading floating-point numbers

A number is an optional sign followed by digits with an optional point and an optional exponent,
or by one of the words `inf`, `infinity` and `nan` in any case. There is at least one digit before
the exponent, and one in it.
-/

namespace GraphScribe.Binary64

/-- Why a text is not a number. -/
inductive Fault where
  | empty
  | invalid
deriving DecidableEq, Repr

/-- The text of a fault. -/
def Fault.message : Fault → String
  | .empty => "cannot parse float from empty string"
  | .invalid => "invalid float literal"

/-- A sign, and what follows it. -/
def splitSign : List Char → Bool × List Char
  | '-' :: rest => (true, rest)
  | '+' :: rest => (false, rest)
  | text => (false, text)

/-- The exponent part of a literal, which runs to its end; a literal may have none. -/
def readExponent : List Char → Option Int
  | [] => some 0
  | c :: rest =>
    if c = 'e' ∨ c = 'E' then
      let (negative, digits) := splitSign rest
      if digits.isEmpty ∨ ¬digits.all Char.isDigit then none
      else
        let value : Int := Nat.ofDigitChars 10 digits 0
        some (if negative then -value else value)
    else none

/-- Digits with an optional point, then an optional exponent. -/
def readDecimal (negative : Bool) (text : List Char) : Option Binary64 :=
  let whole := text.takeWhile Char.isDigit
  let afterWhole := text.dropWhile Char.isDigit
  let (fraction, rest) :=
    match afterWhole with
    | '.' :: afterPoint => (afterPoint.takeWhile Char.isDigit, afterPoint.dropWhile Char.isDigit)
    | _ => ([], afterWhole)
  if whole.isEmpty ∧ fraction.isEmpty then none
  else (readExponent rest).map fun exponent =>
    ofDecimal negative (Nat.ofDigitChars 10 (whole ++ fraction) 0) (exponent - fraction.length)

/-- The words for the numbers that have no digits. -/
def readWord (negative : Bool) (text : List Char) : Option Binary64 :=
  let word := String.ofList (text.map Char.toLower)
  if word = "inf" ∨ word = "infinity" then some (.infinite negative)
  else if word = "nan" then some .nan
  else none

/-- Reads a number. -/
def read (text : List Char) : Except Fault Binary64 :=
  if text.isEmpty then .error .empty
  else
    let (negative, rest) := splitSign text
    match readDecimal negative rest <|> readWord negative rest with
    | some value => .ok value
    | none => .error .invalid

end GraphScribe.Binary64
