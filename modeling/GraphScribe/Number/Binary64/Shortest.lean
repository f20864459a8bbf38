import GraphScribe.Number.Binary64

/-!
# Shortest decimal text

A finite number is written with the fewest decimal digits that read back as it, and among those
with the ones nearest to it; of two equally near the larger. Digits are laid out by position, with
no exponent and no trailing point.

All comparisons are exact: a number's magnitude and the ends of the interval that rounds to it are
whole multiples of a quarter of its last place.
-/

namespace GraphScribe.Binary64

/-- The magnitudes that round to `value * 2 ^ exponent`, with ends `low` and `high` in the same
unit; the ends belong to it if `closed`. -/
structure Interval where
  low : Nat
  value : Nat
  high : Nat
  exponent : Int
  closed : Bool

/-- The interval of a finite number. Below a power of two the numbers lie twice as close. -/
def Finite.interval (x : Finite) : Interval where
  low := if x.significand = Nat.pow 2 52 ∧ -1074 < x.exponent then 4 * x.significand - 1
    else 4 * x.significand - 2
  value := 4 * x.significand
  high := 4 * x.significand + 2
  exponent := x.exponent - 2
  closed := x.significand % 2 = 0

/-- The quotient `2 ^ exponent / 10 ^ place` as a numerator and a denominator. -/
def unitRatio (exponent place : Int) : Nat × Nat :=
  (Nat.pow 2 exponent.toNat * Nat.pow 10 (-place).toNat,
    Nat.pow 2 (-exponent).toNat * Nat.pow 10 place.toNat)

/-- A digit string as a number, and the power of ten that its last digit stands for. -/
structure Digits where
  digits : Nat
  place : Int
deriving DecidableEq, Repr

/-- The number of digits before the point that the interval's value has; not positive if the value
is below one tenth. -/
def Interval.magnitude (i : Interval) : Int :=
  let (n, d) := unitRatio i.exponent (-340)
  (Nat.toDigits 10 (i.value * n / d)).length - 340

/-- The neighbours of the value among the multiples of `10 ^ place` that lie in the interval: the
nearer one, or the only one. -/
def Interval.candidate? (i : Interval) (place : Int) : Option Nat :=
  let (n, d) := unitRatio i.exponent place
  let inside (k : Nat) : Bool :=
    if i.closed then i.low * n ≤ k * d && k * d ≤ i.high * n
    else i.low * n < k * d && k * d < i.high * n
  let below := i.value * n / d
  match inside below, inside (below + 1) with
  | true, true => some (if 2 * (i.value * n) < (2 * below + 1) * d then below else below + 1)
  | true, false => some below
  | false, true => some (below + 1)
  | false, false => none

/-- The first of `count` places, from `place` on downwards, with a candidate. Seventeen digits tell
all numbers apart, so the last place needs no test. -/
def Interval.search (i : Interval) : (count : Nat) → (place : Int) → Digits
  | 0, place =>
    let (n, d) := unitRatio i.exponent place
    ⟨i.value * n / d, place⟩
  | count + 1, place =>
    match i.candidate? place with
    | some k => ⟨k, place⟩
    | none => i.search count (place - 1)

/-- The shortest digits of a finite number. -/
def Finite.shortest (x : Finite) : Digits :=
  let i := x.interval
  i.search 17 (i.magnitude - 1)

/-- Digits laid out by position: zeros up to the point, or a fraction without trailing zeros. -/
def Digits.positional (d : Digits) : List Char :=
  match d.place with
  | .ofNat k => Nat.toDigits 10 (d.digits * Nat.pow 10 k)
  | .negSucc k =>
    let unit := Nat.pow 10 (k + 1)
    let fraction := Nat.toDigits 10 (unit + d.digits % unit) |>.drop 1
    let fraction := (fraction.reverse.dropWhile (· == '0')).reverse
    let whole := Nat.toDigits 10 (d.digits / unit)
    if fraction.isEmpty then whole else whole ++ '.' :: fraction

/-- The text of a finite number. -/
def Finite.text (x : Finite) : List Char :=
  let magnitude := if x.significand = 0 then ['0'] else x.shortest.positional
  if x.negative then '-' :: magnitude else magnitude

/-- The text of a number. -/
def text : Binary64 → List Char
  | .nan => ['N', 'a', 'N']
  | .infinite false => ['i', 'n', 'f']
  | .infinite true => ['-', 'i', 'n', 'f']
  | .finite x => x.text

end GraphScribe.Binary64
