/-!
# Binary floating-point numbers

The numbers of the 64-bit binary interchange format, as exact values: a sign, a significand and a
power of two. Every operation first finds its exact result and then rounds it once, to the nearest
number and from a tie to the even significand. There is one NaN, and two zeros.
-/

namespace GraphScribe

/-- The one way to write a magnitude `significand * 2 ^ exponent` of the format: a significand of
53 bits, or a shorter one at the least exponent. -/
def IsCanonical (significand : Nat) (exponent : Int) : Prop :=
  significand < Nat.pow 2 53 ∧ -1074 ≤ exponent ∧ exponent ≤ 971 ∧
    (Nat.pow 2 52 ≤ significand ∨ exponent = -1074)

instance (significand : Nat) (exponent : Int) : Decidable (IsCanonical significand exponent) := by
  unfold IsCanonical; infer_instance

namespace Binary64

/-- A finite number: `significand * 2 ^ exponent`, negated if `negative`. -/
structure Finite where
  negative : Bool
  significand : Nat
  exponent : Int
  canonical : IsCanonical significand exponent
deriving DecidableEq

end Binary64

/-- A number of the 64-bit binary format. -/
inductive Binary64 where
  | nan
  | infinite (negative : Bool)
  | finite (value : Binary64.Finite)
deriving DecidableEq

namespace Binary64

/-- The zero of a sign. -/
def zero (negative : Bool) : Binary64 :=
  .finite ⟨negative, 0, -1074, by decide⟩

/-- The number one. -/
def one : Binary64 :=
  .finite ⟨false, Nat.pow 2 52, -52, by decide⟩

instance : Inhabited Binary64 := ⟨zero false⟩

/-- A rounded significand and its exponent as a number. A significand of `2 ^ 53` carries into the
exponent, and what is too large for the format is infinite. -/
def pack (negative : Bool) (significand : Nat) (exponent : Int) : Binary64 :=
  let (m, q) :=
    if significand = Nat.pow 2 53 then (Nat.pow 2 52, exponent + 1) else (significand, exponent)
  if h : IsCanonical m q then .finite ⟨negative, m, q, h⟩ else .infinite negative

/-- The quotient `numerator / denominator` divided by `2 ^ exponent`, again as a quotient. -/
def scaled (numerator denominator : Nat) (exponent : Int) : Nat × Nat :=
  match exponent with
  | .ofNat k => (numerator, denominator * Nat.pow 2 k)
  | .negSucc k => (numerator * Nat.pow 2 (k + 1), denominator)

/-- The integer nearest to a quotient, from a tie the even one. -/
def nearestEven (numerator denominator : Nat) : Nat :=
  let quotient := numerator / denominator
  let twice := 2 * (numerator % denominator)
  if twice < denominator ∨ (twice = denominator ∧ quotient % 2 = 0) then quotient else quotient + 1

/-- The exponent at which a positive quotient has a significand of 53 bits, or the least one. -/
def exponentOf (numerator denominator : Nat) : Int :=
  let low : Int := (numerator.log2 : Int) - denominator.log2 - 53
  let (n, d) := scaled numerator denominator low
  max (if Nat.pow 2 53 * d ≤ n then low + 1 else low) (-1074)

/-- The number nearest to a quotient. -/
def ofRatio (negative : Bool) (numerator denominator : Nat) : Binary64 :=
  if numerator = 0 then zero negative
  else
    let exponent := exponentOf numerator denominator
    let (n, d) := scaled numerator denominator exponent
    pack negative (nearestEven n d) exponent

/-- The number nearest to `digits * 10 ^ exponent`. Past the ends of the range the size of the
value alone decides. -/
def ofDecimal (negative : Bool) (digits : Nat) (exponent : Int) : Binary64 :=
  let magnitude := (Nat.toDigits 10 digits).length + exponent
  if digits = 0 ∨ magnitude < -330 then zero negative
  else if 310 < magnitude then .infinite negative
  else match exponent with
    | .ofNat k => ofRatio negative (digits * Nat.pow 10 k) 1
    | .negSucc k => ofRatio negative digits (Nat.pow 10 (k + 1))

/-- The number nearest to `significand * 2 ^ exponent`. -/
def ofDyadic (negative : Bool) (significand : Nat) : Int → Binary64
  | .ofNat k => ofRatio negative (significand * Nat.pow 2 k) 1
  | .negSucc k => ofRatio negative significand (Nat.pow 2 (k + 1))

/-! ## Arithmetic -/

/-- The product. Zero times an infinity is NaN. -/
def mul : Binary64 → Binary64 → Binary64
  | .nan, _ => .nan
  | _, .nan => .nan
  | .infinite s, .infinite t => .infinite (s != t)
  | .infinite s, .finite y => if y.significand = 0 then .nan else .infinite (s != y.negative)
  | .finite x, .infinite t => if x.significand = 0 then .nan else .infinite (x.negative != t)
  | .finite x, .finite y =>
    ofDyadic (x.negative != y.negative) (x.significand * y.significand) (x.exponent + y.exponent)

instance : Mul Binary64 := ⟨mul⟩

/-- Replaces a magnitude by an integer. `choose` gets the integer below it and the remainder over
its denominator; a magnitude that is an integer stays, and the sign always stays. -/
def toIntegral (choose : (negative : Bool) → (below remainder denominator : Nat) → Nat) :
    Binary64 → Binary64
  | .finite x =>
    match x.exponent with
    | .ofNat _ => .finite x
    | .negSucc k =>
      let denominator := Nat.pow 2 (k + 1)
      let below := x.significand / denominator
      ofRatio x.negative (choose x.negative below (x.significand % denominator) denominator) 1
  | x => x

/-- The greatest integer that is not above the number. -/
def floor : Binary64 → Binary64 :=
  toIntegral fun negative below remainder _ =>
    if negative ∧ remainder ≠ 0 then below + 1 else below

/-- The least integer that is not below the number. -/
def ceil : Binary64 → Binary64 :=
  toIntegral fun negative below remainder _ =>
    if ¬negative ∧ remainder ≠ 0 then below + 1 else below

/-- The nearest integer, from a tie the one further from zero. -/
def round : Binary64 → Binary64 :=
  toIntegral fun _ below remainder denominator =>
    if denominator ≤ 2 * remainder then below + 1 else below

end Binary64
end GraphScribe
