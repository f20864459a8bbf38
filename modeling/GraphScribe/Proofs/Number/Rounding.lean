import GraphScribe.Number.Binary64
import Mathlib

/-!
# Rounding to the nearest number

An operation on floating-point numbers gives the number of the format that is nearest to the exact
result, and of two that are equally near the one with an even significand. A result is infinite if
it is half a step or more above the largest number. This says which number an operation gives
without saying how it is found.

* `IsNearest`: the number nearest to a magnitude, which is only one (`IsNearest.unique`).
* `isNearest_ofDecimal`: decimal digits are read as the number nearest to what they denote.
* `isNearest_mul`: a product is the number nearest to the exact product.
* `value_floor`, `value_ceil`, `magnitude_round`: rounding to an integer is exact.
-/

namespace GraphScribe.Binary64

/-! ## Exact values -/

/-- The size of a number. -/
def Finite.magnitude (x : Finite) : ℚ :=
  x.significand * 2 ^ x.exponent

/-- The value of a number. -/
def Finite.value (x : Finite) : ℚ :=
  if x.negative then -x.magnitude else x.magnitude

/-- The least magnitude that is rounded to an infinity: half a unit above the largest number. -/
def overflow : ℚ :=
  (2 ^ 53 - 1 / 2) * 2 ^ (971 : ℤ)

/-- A number of the format is nearest to a magnitude with a sign. -/
inductive IsNearest (negative : Bool) (x : ℚ) : Binary64 → Prop where
  /-- None is nearer, and one that is as near leaves the even significand to it. -/
  | finite {v : Finite} (sign : v.negative = negative) (small : x < overflow)
      (nearest : ∀ w : Finite, |v.magnitude - x| ≤ |w.magnitude - x|)
      (even : ∀ w : Finite, w.magnitude ≠ v.magnitude → |w.magnitude - x| = |v.magnitude - x| →
        v.significand % 2 = 0) : IsNearest negative x (.finite v)
  | infinite (large : overflow ≤ x) : IsNearest negative x (.infinite negative)

theorem two_zpow_pos (e : ℤ) : (0 : ℚ) < 2 ^ e :=
  zpow_pos two_pos e

/-- A magnitude in units of a power of two. -/
theorem scaled_mul (x : ℚ) (e : ℤ) : x / 2 ^ e * 2 ^ e = x :=
  div_mul_cancel₀ x (two_zpow_pos e).ne'

theorem Finite.magnitude_nonneg (x : Finite) : 0 ≤ x.magnitude :=
  mul_nonneg (Nat.cast_nonneg _) (two_zpow_pos _).le

/-! ## Rounding at an exponent -/

/-- A magnitude is rounded to so many units of `2 ^ e`, and that exponent leaves as many bits for
the significand as the format has. -/
structure IsRounded (x : ℚ) (m : ℕ) (e : ℤ) : Prop where
  least : -1074 ≤ e
  short : x / 2 ^ e < 2 ^ 53
  long : 2 ^ 52 ≤ x / 2 ^ e ∨ e = -1074
  near : |(m : ℚ) - x / 2 ^ e| ≤ 1 / 2
  even : |(m : ℚ) - x / 2 ^ e| = 1 / 2 → m % 2 = 0

/-- What is within half a unit is nearest among all integers. Another one is only as near if both are
half a unit away. -/
theorem abs_sub_le_of_near {X : ℚ} {m : ℕ} (near : |(m : ℚ) - X| ≤ 1 / 2) (k : ℕ) :
    |(m : ℚ) - X| ≤ |(k : ℚ) - X| ∧
      (k ≠ m → |(k : ℚ) - X| = |(m : ℚ) - X| → |(m : ℚ) - X| = 1 / 2) := by
  by_cases same : k = m
  · subst same
    exact ⟨le_rfl, fun other => absurd rfl other⟩
  · have apart : (1 : ℚ) ≤ |(k : ℚ) - m| := by
      have : (1 : ℤ) ≤ |(k : ℤ) - m| := Int.one_le_abs (sub_ne_zero.2 (by exact_mod_cast same))
      exact_mod_cast this
    have triangle : |(k : ℚ) - m| ≤ |(k : ℚ) - X| + |(m : ℚ) - X| := by
      rw [abs_sub_comm (m : ℚ) X]
      exact abs_sub_le _ _ _
    exact ⟨by linarith, fun _ equal => by linarith⟩

/-- Two integers that are half a unit away are neighbours. -/
theorem eq_add_one_of_tie {X : ℚ} {k m : ℕ} (other : k ≠ m) (half : |(k : ℚ) - X| = 1 / 2)
    (half' : |(m : ℚ) - X| = 1 / 2) : k = m + 1 ∨ m = k + 1 := by
  rcases (abs_eq (by norm_num)).1 half with above | below <;>
    rcases (abs_eq (by norm_num)).1 half' with above' | below'
  · have : (k : ℚ) = m := by linarith
    exact absurd (by exact_mod_cast this) other
  · have : (k : ℚ) = m + 1 := by linarith
    exact .inl (by exact_mod_cast this)
  · have : (m : ℚ) = k + 1 := by linarith
    exact .inr (by exact_mod_cast this)
  · have : (k : ℚ) = m := by linarith
    exact absurd (by exact_mod_cast this) other

namespace IsRounded

variable {x : ℚ} {m : ℕ} {e : ℤ}

theorem le (rounded : IsRounded x m e) : m ≤ 2 ^ 53 := by
  have near := (abs_le.1 rounded.near).2
  have short := rounded.short
  have : (m : ℚ) < 2 ^ 53 + 1 := by linarith
  exact Nat.lt_succ_iff.1 (by exact_mod_cast this)

theorem ge (rounded : IsRounded x m e) : 2 ^ 52 ≤ m ∨ e = -1074 := by
  refine rounded.long.imp_left fun long => ?_
  have near := (abs_le.1 rounded.near).1
  have : (2 : ℚ) ^ 52 < m + 1 := by linarith
  exact Nat.lt_succ_iff.1 (by exact_mod_cast this)

/-- Numbers with smaller exponents are below `2 ^ 52` units, and the others are integers in them. -/
theorem units_of_finite (rounded : IsRounded x m e) (w : Finite) :
    (∃ d : ℕ, w.magnitude = (w.significand * 2 ^ d : ℕ) * 2 ^ e) ∨
      w.magnitude < 2 ^ 52 * 2 ^ e ∧ (2 : ℚ) ^ 52 ≤ x / 2 ^ e := by
  obtain ⟨short, least, -, -⟩ := w.canonical
  rcases le_or_gt e w.exponent with above | below
  · obtain ⟨d, is⟩ := Int.le.dest above
    refine .inl ⟨d, ?_⟩
    rw [Finite.magnitude, ← is, zpow_add₀ two_ne_zero, zpow_natCast]
    push_cast
    ring
  · have long : (2 : ℚ) ^ 52 ≤ x / 2 ^ e := rounded.long.resolve_right (by omega)
    refine .inr ⟨?_, long⟩
    have few : (w.significand : ℚ) < 2 ^ 53 := by exact_mod_cast short
    have smaller : (2 : ℚ) ^ w.exponent ≤ 2 ^ (e - 1) :=
      zpow_le_zpow_right₀ one_le_two (by omega)
    calc w.magnitude
        < 2 ^ 53 * 2 ^ w.exponent := mul_lt_mul_of_pos_right few (two_zpow_pos _)
      _ ≤ 2 ^ 53 * 2 ^ (e - 1) := mul_le_mul_of_nonneg_left smaller (by positivity)
      _ = 2 ^ 52 * 2 ^ e := by
        rw [zpow_sub_one₀ two_ne_zero]
        ring

/-- Distances in units. -/
theorem abs_sub_units (a x : ℚ) (e : ℤ) : |a * 2 ^ e - x| = |a - x / 2 ^ e| * 2 ^ e := by
  conv_lhs => rw [← scaled_mul x e, ← sub_mul, abs_mul, abs_of_pos (two_zpow_pos e)]

/-- No number of the format is nearer. One that is as near has an odd significand, and the rounded
one is even. -/
theorem nearest (rounded : IsRounded x m e) (w : Finite) :
    |(m : ℚ) * 2 ^ e - x| ≤ |w.magnitude - x| ∧
      (w.magnitude ≠ m * 2 ^ e → |w.magnitude - x| = |(m : ℚ) * 2 ^ e - x| →
        m % 2 = 0 ∧ w.significand % 2 = 1) := by
  have unit := two_zpow_pos e
  rcases rounded.units_of_finite w with ⟨d, is⟩ | ⟨below, long⟩
  · obtain ⟨nearest, tie⟩ := abs_sub_le_of_near rounded.near (w.significand * 2 ^ d)
    rw [is, abs_sub_units, abs_sub_units]
    refine ⟨mul_le_mul_of_nonneg_right nearest unit.le, fun other equal => ?_⟩
    have equal := mul_right_cancel₀ unit.ne' equal
    have half := tie (fun same => other (by rw [same])) equal
    have even := rounded.even half
    refine ⟨even, ?_⟩
    -- the two are one unit apart
    have odd : (w.significand * 2 ^ d) % 2 = 1 := by
      have step := eq_add_one_of_tie (fun same => other (by rw [same])) (equal.trans half) half
      omega
    rw [Nat.mul_mod] at odd
    rcases Nat.mod_two_eq_zero_or_one w.significand with zero | one
    · simp [zero] at odd
    · exact one
  · -- the number is below `2 ^ 52` units, which are nearer to the magnitude and an integer
    have least := (abs_sub_le_of_near rounded.near (2 ^ 52)).1
    rw [Nat.cast_pow, Nat.cast_ofNat, abs_sub_comm _ (x / 2 ^ e), abs_sub_comm _ (x / 2 ^ e),
      abs_of_nonneg (sub_nonneg.2 long)] at least
    have further : |(m : ℚ) * 2 ^ e - x| < |w.magnitude - x| := by
      have inUnits : 2 ^ 52 * 2 ^ e ≤ x := by
        calc 2 ^ 52 * 2 ^ e ≤ x / 2 ^ e * 2 ^ e := mul_le_mul_of_nonneg_right long unit.le
          _ = x := scaled_mul x e
      rw [abs_sub_comm w.magnitude, abs_of_pos (sub_pos.2 (below.trans_le inUnits)),
        abs_sub_units, abs_sub_comm]
      calc |x / 2 ^ e - m| * 2 ^ e
          ≤ (x / 2 ^ e - 2 ^ 52) * 2 ^ e := mul_le_mul_of_nonneg_right least unit.le
        _ = x - 2 ^ 52 * 2 ^ e := by rw [sub_mul, scaled_mul]
        _ < x - w.magnitude := by linarith
    exact ⟨further.le, fun _ equal => absurd equal further.ne'⟩

/-- A magnitude that is rounded within the range of exponents is below the overflow. -/
theorem small (rounded : IsRounded x m e) (fits : m = 2 ^ 53 ∧ e ≤ 970 ∨ m < 2 ^ 53 ∧ e ≤ 971) :
    x < overflow := by
  have unit := two_zpow_pos e
  rw [← scaled_mul x e]
  rcases fits with ⟨-, inside⟩ | ⟨few, inside⟩
  · calc x / 2 ^ e * 2 ^ e
        < 2 ^ 53 * 2 ^ e := mul_lt_mul_of_pos_right rounded.short unit
      _ ≤ 2 ^ 53 * 2 ^ (970 : ℤ) :=
        mul_le_mul_of_nonneg_left (zpow_le_zpow_right₀ one_le_two inside) (by positivity)
      _ < overflow := by
        have unit := two_zpow_pos 970
        rw [overflow, show (971 : ℤ) = 970 + 1 from rfl, zpow_add_one₀ two_ne_zero]
        generalize (2 : ℚ) ^ (970 : ℤ) = u at unit
        linarith
  · have half : x / 2 ^ e < 2 ^ 53 - 1 / 2 := by
      have near := rounded.near
      have bound : (m : ℚ) + 1 ≤ 2 ^ 53 := by exact_mod_cast few
      have upper : x / 2 ^ e ≤ m + 1 / 2 := by linarith [(abs_le.1 near).1]
      refine lt_of_le_of_ne (by linarith) fun tie => ?_
      -- the largest odd significand is not taken from a tie
      have last : m = 2 ^ 53 - 1 := by
        have : (2 : ℚ) ^ 53 ≤ m + 1 := by linarith
        have : 2 ^ 53 ≤ m + 1 := by exact_mod_cast this
        omega
      have odd := rounded.even (by rw [tie, last]; norm_num)
      rw [last] at odd
      norm_num at odd
    calc x / 2 ^ e * 2 ^ e
        < (2 ^ 53 - 1 / 2) * 2 ^ e := mul_lt_mul_of_pos_right half unit
      _ ≤ overflow :=
        mul_le_mul_of_nonneg_left (zpow_le_zpow_right₀ one_le_two inside) (by norm_num)

/-- A magnitude that is rounded past the range of exponents is not. -/
theorem large (rounded : IsRounded x m e) (past : m = 2 ^ 53 ∧ 971 ≤ e ∨ 972 ≤ e) :
    overflow ≤ x := by
  rw [← scaled_mul x e]
  rcases past with ⟨many, outside⟩ | outside
  · have half : (2 : ℚ) ^ 53 - 1 / 2 ≤ x / 2 ^ e := by
      have near := (abs_le.1 rounded.near).2
      rw [many] at near
      push_cast at near
      linarith
    calc overflow
        ≤ (2 ^ 53 - 1 / 2) * 2 ^ e :=
          mul_le_mul_of_nonneg_left (zpow_le_zpow_right₀ one_le_two outside) (by norm_num)
      _ ≤ x / 2 ^ e * 2 ^ e := mul_le_mul_of_nonneg_right half (two_zpow_pos e).le
  · have long : (2 : ℚ) ^ 52 ≤ x / 2 ^ e := rounded.long.resolve_right (by omega)
    calc overflow
        ≤ 2 ^ 52 * 2 ^ (972 : ℤ) := by
          have unit := two_zpow_pos 971
          rw [overflow, show (972 : ℤ) = 971 + 1 from rfl, zpow_add_one₀ two_ne_zero]
          generalize (2 : ℚ) ^ (971 : ℤ) = u at unit
          linarith
      _ ≤ 2 ^ 52 * 2 ^ e :=
        mul_le_mul_of_nonneg_left (zpow_le_zpow_right₀ one_le_two outside) (by positivity)
      _ ≤ x / 2 ^ e * 2 ^ e := mul_le_mul_of_nonneg_right long (two_zpow_pos e).le

end IsRounded

/-- A rounded magnitude is packed as it is, unless it overflows. -/
theorem pack_cases {x : ℚ} {m : ℕ} {e : ℤ} (negative : Bool) (rounded : IsRounded x m e) :
    (∃ v : Finite, pack negative m e = .finite v ∧ v.negative = negative ∧
      v.magnitude = m * 2 ^ e ∧ (m % 2 = 0 → v.significand % 2 = 0) ∧ x < overflow) ∨
    pack negative m e = .infinite negative ∧ overflow ≤ x := by
  have least := rounded.least
  unfold pack
  by_cases carries : m = Nat.pow 2 53
  · have same : ((Nat.pow 2 52 : ℕ) : ℚ) * 2 ^ (e + 1) = m * 2 ^ e := by
      rw [carries, zpow_add_one₀ two_ne_zero]
      norm_num
      ring
    rw [if_pos carries]
    dsimp only
    split
    · next canonical =>
      have inside : e + 1 ≤ 971 := canonical.2.2.1
      refine .inl ⟨_, rfl, rfl, same, fun _ => ?_, rounded.small (.inl ⟨carries, by omega⟩)⟩
      show Nat.pow 2 52 % 2 = 0
      decide
    · next notCanonical =>
      refine .inr ⟨rfl, rounded.large (.inl ⟨carries, ?_⟩)⟩
      by_contra inside
      exact notCanonical ⟨by decide, by omega, by omega, .inl le_rfl⟩
  · have few : m < 2 ^ 53 := lt_of_le_of_ne rounded.le carries
    rw [if_neg carries]
    dsimp only
    split
    · next canonical =>
      exact .inl ⟨_, rfl, rfl, rfl, id, rounded.small (.inr ⟨few, canonical.2.2.1⟩)⟩
    · next notCanonical =>
      refine .inr ⟨rfl, rounded.large (.inr ?_)⟩
      by_contra inside
      exact notCanonical ⟨few, least, by omega, rounded.ge⟩

/-- A rounded magnitude is packed as the number nearest to it. -/
theorem isNearest_pack {x : ℚ} {m : ℕ} {e : ℤ} (negative : Bool) (rounded : IsRounded x m e) :
    IsNearest negative x (pack negative m e) := by
  rcases pack_cases negative rounded with ⟨v, is, sign, same, even, small⟩ | ⟨is, large⟩
  · rw [is]
    refine .finite sign small (fun w => ?_) fun w other tie => even ?_
    · rw [same]
      exact (rounded.nearest w).1
    · rw [same] at other tie
      exact ((rounded.nearest w).2 other tie).1
  · rw [is]
    exact .infinite large

/-! ## Rounding a quotient -/

theorem scaled_spec {n d : ℕ} (positive : 0 < d) (e : ℤ) :
    0 < (scaled n d e).2 ∧
      ((scaled n d e).1 : ℚ) / (scaled n d e).2 = (n : ℚ) / d / 2 ^ e := by
  cases e with
  | ofNat k =>
    refine ⟨Nat.mul_pos positive (Nat.pow_pos two_pos), ?_⟩
    simp only [scaled, Int.ofNat_eq_natCast, zpow_natCast, Nat.pow_eq]
    push_cast
    rw [div_div]
  | negSucc k =>
    refine ⟨positive, ?_⟩
    simp only [scaled, zpow_negSucc, Nat.pow_eq, div_inv_eq_mul]
    push_cast
    ring

/-- The nearest integer is half a unit away at most, and even if it is so far. -/
theorem nearestEven_spec {n d : ℕ} (positive : 0 < d) :
    |(nearestEven n d : ℚ) - (n : ℚ) / d| ≤ 1 / 2 ∧
      (|(nearestEven n d : ℚ) - (n : ℚ) / d| = 1 / 2 → nearestEven n d % 2 = 0) := by
  have unit : (0 : ℚ) < d := by exact_mod_cast positive
  have parts : (n : ℚ) / d = (n / d : ℕ) + ((n % d : ℕ) : ℚ) / d := by
    have whole : ((n / d : ℕ) : ℚ) * d + (n % d : ℕ) = n := by
      exact_mod_cast Nat.div_add_mod' n d
    rw [add_div' _ _ _ unit.ne', whole]
  have below : ((n % d : ℕ) : ℚ) < d := by exact_mod_cast Nat.mod_lt n positive
  have atLeast : (0 : ℚ) ≤ ((n % d : ℕ) : ℚ) := Nat.cast_nonneg _
  unfold nearestEven
  dsimp only
  rw [parts]
  split
  · next down =>
    have rest : |((n / d : ℕ) : ℚ) - ((n / d : ℕ) + ((n % d : ℕ) : ℚ) / d)| = (n % d : ℕ) / d := by
      rw [sub_add_cancel_left, abs_neg, abs_of_nonneg (div_nonneg atLeast unit.le)]
    rw [rest, div_le_iff₀ unit, div_eq_iff unit.ne']
    rcases down with less | ⟨tie, even⟩
    · have less : 2 * ((n % d : ℕ) : ℚ) < d := by exact_mod_cast less
      exact ⟨by linarith, fun tie => by linarith⟩
    · have tie : 2 * ((n % d : ℕ) : ℚ) = d := by exact_mod_cast tie
      exact ⟨by linarith, fun _ => even⟩
  · next up =>
    have atLeastHalf : d ≤ 2 * (n % d) := by omega
    have more : (d : ℚ) ≤ 2 * ((n % d : ℕ) : ℚ) := by exact_mod_cast atLeastHalf
    have rest : |((n / d + 1 : ℕ) : ℚ) - ((n / d : ℕ) + ((n % d : ℕ) : ℚ) / d)| =
        1 - (n % d : ℕ) / d := by
      rw [Nat.cast_add_one, add_sub_add_left_eq_sub, abs_of_nonneg]
      rw [sub_nonneg, div_le_one unit]
      exact below.le
    rw [rest, sub_le_comm, le_div_iff₀ unit]
    refine ⟨by linarith, fun tie => ?_⟩
    have half : ((n % d : ℕ) : ℚ) = 1 / 2 * d := by
      rw [← div_eq_iff unit.ne']
      linarith
    have twice : 2 * (n % d) = d := by
      have : 2 * ((n % d : ℕ) : ℚ) = d := by linarith
      exact_mod_cast this
    omega

/-- A number is between two powers of two. -/
theorem log2_spec {n : ℕ} (positive : n ≠ 0) :
    (2 : ℚ) ^ (n.log2 : ℤ) ≤ n ∧ (n : ℚ) < 2 ^ ((n.log2 : ℤ) + 1) := by
  constructor
  · rw [zpow_natCast]
    exact_mod_cast Nat.log2_self_le positive
  · rw [← Nat.cast_add_one, zpow_natCast]
    exact_mod_cast Nat.lt_log2_self

/-- The exponent of a quotient leaves 53 bits for its significand, or is the least one. -/
theorem exponentOf_spec {n d : ℕ} (some_ : n ≠ 0) (positive : 0 < d) :
    -1074 ≤ exponentOf n d ∧ (n : ℚ) / d / 2 ^ exponentOf n d < 2 ^ 53 ∧
      ((2 : ℚ) ^ 52 ≤ (n : ℚ) / d / 2 ^ exponentOf n d ∨ exponentOf n d = -1074) := by
  obtain ⟨lowN, highN⟩ := log2_spec some_
  obtain ⟨lowD, highD⟩ := log2_spec positive.ne'
  have unit : (0 : ℚ) < d := by exact_mod_cast positive
  let low : ℤ := (n.log2 : ℤ) - d.log2 - 53
  let e : ℤ := if Nat.pow 2 53 * (scaled n d low).2 ≤ (scaled n d low).1 then low + 1 else low
  have is : exponentOf n d = max e (-1074) := rfl
  -- the first guess is at most one too low
  have atLeast : (2 : ℚ) ^ (52 : ℤ) * 2 ^ low ≤ (n : ℚ) / d := by
    rw [le_div_iff₀ unit, ← zpow_add₀ two_ne_zero]
    calc (2 : ℚ) ^ (52 + low) * d
        ≤ 2 ^ (52 + low) * 2 ^ ((d.log2 : ℤ) + 1) :=
          mul_le_mul_of_nonneg_left highD.le (two_zpow_pos _).le
      _ = 2 ^ (n.log2 : ℤ) := by
        rw [← zpow_add₀ two_ne_zero]
        congr 1
        simp only [low]
        omega
      _ ≤ n := lowN
  have below : (n : ℚ) / d < 2 ^ (54 : ℤ) * 2 ^ low := by
    rw [div_lt_iff₀ unit, ← zpow_add₀ two_ne_zero]
    calc (n : ℚ) < 2 ^ ((n.log2 : ℤ) + 1) := highN
      _ = 2 ^ (54 + low) * 2 ^ (d.log2 : ℤ) := by
        rw [← zpow_add₀ two_ne_zero]
        congr 1
        simp only [low]
        omega
      _ ≤ 2 ^ (54 + low) * d := mul_le_mul_of_nonneg_left lowD (two_zpow_pos _).le
  have guess : (n : ℚ) / d / 2 ^ e < 2 ^ 53 ∧ (2 : ℚ) ^ 52 ≤ (n : ℚ) / d / 2 ^ e := by
    obtain ⟨positive', same⟩ := scaled_spec (n := n) positive low
    have unit' : (0 : ℚ) < (scaled n d low).2 := by exact_mod_cast positive'
    have test : Nat.pow 2 53 * (scaled n d low).2 ≤ (scaled n d low).1 ↔
        (2 : ℚ) ^ 53 ≤ (n : ℚ) / d / 2 ^ low := by
      rw [← same, le_div_iff₀ unit']
      norm_cast
    simp only [e, test]
    split
    · next many =>
      rw [zpow_add_one₀ two_ne_zero, ← div_div, div_lt_iff₀ two_pos, le_div_iff₀ two_pos,
        div_lt_iff₀ (two_zpow_pos low)]
      exact ⟨below.trans_eq (by norm_num), le_trans (by norm_num) many⟩
    · next few =>
      exact ⟨not_le.1 few, (le_div_iff₀ (two_zpow_pos low)).2 (le_of_eq_of_le (by norm_num) atLeast)⟩
  rw [is]
  rcases le_total (-1074) e with inside | outside
  · rw [max_eq_left inside]
    exact ⟨inside, guess.1, .inl guess.2⟩
  · rw [max_eq_right outside]
    refine ⟨le_rfl, lt_of_le_of_lt ?_ guess.1, .inr rfl⟩
    exact div_le_div_of_nonneg_left (by positivity) (two_zpow_pos e)
      (zpow_le_zpow_right₀ one_le_two outside)

/-- A quotient is rounded and packed. -/
theorem ofRatio_eq_pack (negative : Bool) (n : ℕ) {d : ℕ} (positive : 0 < d) :
    ∃ m e, IsRounded ((n : ℚ) / d) m e ∧ ofRatio negative n d = pack negative m e := by
  unfold ofRatio
  split
  · next none =>
    subst none
    exact ⟨0, -1074, ⟨le_rfl, by norm_num, .inr rfl, by norm_num, fun _ => rfl⟩, rfl⟩
  · next some_ =>
    obtain ⟨least, short, long⟩ := exponentOf_spec some_ positive
    obtain ⟨positive', same⟩ := scaled_spec (n := n) positive (exponentOf n d)
    obtain ⟨near, even⟩ := nearestEven_spec (n := (scaled n d (exponentOf n d)).1) positive'
    rw [same] at near even
    exact ⟨_, _, ⟨least, short, long, near, even⟩, rfl⟩

/-- A quotient becomes the number nearest to it. -/
theorem isNearest_ofRatio (negative : Bool) (n : ℕ) {d : ℕ} (positive : 0 < d) :
    IsNearest negative ((n : ℚ) / d) (ofRatio negative n d) := by
  obtain ⟨m, e, rounded, same⟩ := ofRatio_eq_pack negative n positive
  exact same ▸ isNearest_pack negative rounded

/-! ## There is only one nearest number -/

/-- A number is told by its sign and its size: there is one way to write a magnitude. -/
theorem Finite.eq_of_magnitude {v w : Finite} (sign : v.negative = w.negative)
    (same : v.magnitude = w.magnitude) : v = w := by
  have notBelow {v w : Finite} (same : v.magnitude = w.magnitude) : ¬ v.exponent < w.exponent := by
    intro below
    obtain ⟨short, least, -, -⟩ := v.canonical
    have long : 2 ^ 52 ≤ w.significand := w.canonical.2.2.2.resolve_right (by omega)
    obtain ⟨d, is⟩ := Int.le.dest (Int.add_one_le_of_lt below)
    rw [Finite.magnitude, Finite.magnitude, ← is, zpow_add₀ two_ne_zero, zpow_add_one₀ two_ne_zero,
      zpow_natCast] at same
    have units : (v.significand : ℚ) = w.significand * (2 * 2 ^ d) :=
      mul_right_cancel₀ (two_zpow_pos v.exponent).ne' (same.trans (by ring))
    have units : v.significand = w.significand * (2 * 2 ^ d) := by exact_mod_cast units
    have atLeast : w.significand * 2 ≤ w.significand * (2 * 2 ^ d) :=
      Nat.mul_le_mul_left _ (Nat.le_mul_of_pos_right 2 (by positivity))
    have short : v.significand < 2 ^ 53 := short
    omega
  have exponent : v.exponent = w.exponent :=
    le_antisymm (not_lt.1 (notBelow same.symm)) (not_lt.1 (notBelow same))
  have significand : v.significand = w.significand := by
    rw [Finite.magnitude, Finite.magnitude, exponent] at same
    exact_mod_cast mul_right_cancel₀ (two_zpow_pos w.exponent).ne' same
  cases v
  cases w
  cases sign
  cases exponent
  cases significand
  rfl

theorem exists_isRounded {x : ℚ} (nonneg : 0 ≤ x) : ∃ m e, IsRounded x m e := by
  obtain ⟨m, e, rounded, -⟩ := ofRatio_eq_pack false x.num.toNat x.den_pos
  have same : ((x.num.toNat : ℕ) : ℚ) / x.den = x := by
    rw [← Int.cast_natCast, Int.toNat_of_nonneg (Rat.num_nonneg.2 nonneg), Rat.num_div_den]
  exact ⟨m, e, same ▸ rounded⟩

/-- What is nearest is determined: the sign and the magnitude leave no choice. -/
theorem IsNearest.unique {negative : Bool} {x : ℚ} {b b' : Binary64} (nonneg : 0 ≤ x)
    (nearest : IsNearest negative x b) (nearest' : IsNearest negative x b') : b = b' := by
  cases nearest with
  | infinite large =>
    cases nearest' with
    | infinite => rfl
    | finite _ small => exact absurd large (not_le.2 small)
  | @finite v sign small least even =>
    cases nearest' with
    | infinite large => exact absurd large (not_le.2 small)
    | @finite v' sign' _ least' even' =>
      refine congrArg _ (Finite.eq_of_magnitude (sign.trans sign'.symm) ?_)
      by_contra other
      have tie : |v.magnitude - x| = |v'.magnitude - x| := le_antisymm (least v') (least' v)
      have isEven := even v' (Ne.symm other) tie.symm
      have isEven' := even' v other tie
      obtain ⟨m, e, rounded⟩ := exists_isRounded nonneg
      obtain ⟨p, same⟩ : ∃ p : Finite, p.magnitude = m * 2 ^ e := by
        rcases pack_cases negative rounded with ⟨p, -, -, same, -⟩ | ⟨-, large⟩
        · exact ⟨p, same⟩
        · exact absurd large (not_le.2 small)
      -- one of the two is not the rounded magnitude, and then it is odd
      have odd {u : Finite} (notRounded : u.magnitude ≠ m * 2 ^ e)
          (nearest : ∀ w : Finite, |u.magnitude - x| ≤ |w.magnitude - x|)
          (isEven : u.significand % 2 = 0) : False := by
        obtain ⟨further, isOdd⟩ := rounded.nearest u
        have tie := le_antisymm (same ▸ nearest p) further
        have := (isOdd notRounded tie).2
        omega
      by_cases isRounded : v.magnitude = m * 2 ^ e
      · exact odd (fun same => other (isRounded.trans same.symm)) least' isEven'
      · exact odd isRounded least isEven

/-- A number is the nearest one to itself. -/
theorem isNearest_self {w : Finite} (small : w.magnitude < overflow) :
    IsNearest w.negative w.magnitude (.finite w) := by
  refine .finite rfl small (fun v => ?_) fun v other tie => ?_
  · rw [sub_self, abs_zero]
    exact abs_nonneg _
  · rw [sub_self, abs_zero, abs_eq_zero, sub_eq_zero] at tie
    exact absurd tie other

theorem Finite.magnitude_lt_overflow (w : Finite) : w.magnitude < overflow := by
  obtain ⟨short, -, most, -⟩ := w.canonical
  have few : (w.significand : ℚ) + 1 ≤ 2 ^ 53 := by exact_mod_cast short
  have unit := two_zpow_pos 971
  calc w.magnitude
      ≤ w.significand * 2 ^ (971 : ℤ) :=
        mul_le_mul_of_nonneg_left (zpow_le_zpow_right₀ one_le_two most) (Nat.cast_nonneg _)
    _ < overflow := mul_lt_mul_of_pos_right (by linarith) unit

/-- A magnitude of the format is not changed. -/
theorem IsNearest.eq_of_magnitude {w : Finite} {b : Binary64}
    (nearest : IsNearest w.negative w.magnitude b) : b = .finite w :=
  nearest.unique w.magnitude_nonneg (isNearest_self w.magnitude_lt_overflow)

/-! ## Reading and multiplication -/

/-- A multiple of a power of two becomes the number nearest to it. -/
theorem isNearest_ofDyadic (negative : Bool) (significand : ℕ) (e : ℤ) :
    IsNearest negative (significand * 2 ^ e) (ofDyadic negative significand e) := by
  cases e with
  | ofNat k =>
    have nearest := isNearest_ofRatio negative (significand * 2 ^ k) one_pos
    rwa [Nat.cast_one, div_one, Nat.cast_mul, Nat.cast_pow, Nat.cast_ofNat] at nearest
  | negSucc k =>
    have nearest := isNearest_ofRatio negative significand (d := 2 ^ (k + 1)) (by positivity)
    rwa [Nat.cast_pow, Nat.cast_ofNat] at nearest

/-- A product of finite numbers is the number nearest to the exact product. -/
theorem isNearest_mul (x y : Finite) :
    IsNearest (x.negative != y.negative) (x.magnitude * y.magnitude) (.finite x * .finite y) := by
  have exact_ : x.magnitude * y.magnitude =
      (x.significand * y.significand : ℕ) * 2 ^ (x.exponent + y.exponent) := by
    rw [Finite.magnitude, Finite.magnitude, zpow_add₀ two_ne_zero]
    push_cast
    ring
  rw [exact_]
  exact isNearest_ofDyadic _ _ _

/-- The length of decimal digits tells the size of a number. -/
theorem toDigits_bounds {n : ℕ} (positive : n ≠ 0) :
    (10 : ℚ) ^ ((Nat.toDigits 10 n).length - 1 : ℤ) ≤ n ∧
      (n : ℚ) < 10 ^ ((Nat.toDigits 10 n).length : ℤ) := by
  have filled : 0 < (Nat.toDigits 10 n).length := Nat.length_toDigits_pos
  constructor
  · obtain ⟨k, is⟩ : ∃ k, (Nat.toDigits 10 n).length = k + 1 := ⟨_, (Nat.succ_pred filled.ne').symm⟩
    have atLeast : 10 ^ k ≤ n := by
      rcases Nat.eq_zero_or_pos k with rfl | more
      · exact Nat.pos_of_ne_zero positive
      · by_contra less
        have := (Nat.length_toDigits_le_iff (by decide) more).2 (not_le.1 less)
        omega
    rw [is, Nat.cast_add_one, add_sub_cancel_right, zpow_natCast]
    exact_mod_cast atLeast
  · have less := (Nat.length_toDigits_le_iff (b := 10) (n := n) (by decide) filled).1 le_rfl
    rw [zpow_natCast]
    exact_mod_cast less

/-- A magnitude of less than half the least number becomes zero. -/
theorem isNearest_zero (negative : Bool) {x : ℚ} (nonneg : 0 ≤ x)
    (tiny : x < 1 / 2 * 2 ^ (-1074 : ℤ)) : IsNearest negative x (zero negative) := by
  have half : x / 2 ^ (-1074 : ℤ) < 1 / 2 := (div_lt_iff₀ (two_zpow_pos _)).2 tiny
  have atLeast : 0 ≤ x / 2 ^ (-1074 : ℤ) := div_nonneg nonneg (two_zpow_pos _).le
  have rounded : IsRounded x 0 (-1074) := by
    refine ⟨le_rfl, half.trans (by norm_num), .inr rfl, ?_, fun _ => rfl⟩
    rw [Nat.cast_zero, zero_sub, abs_neg, abs_of_nonneg atLeast]
    exact half.le
  exact isNearest_pack negative rounded

/-- Decimal digits with an exponent are read as the number nearest to what they denote, also past the
ends of the range. -/
theorem isNearest_ofDecimal (negative : Bool) (digits : ℕ) (exponent : ℤ) :
    IsNearest negative (digits * 10 ^ exponent) (ofDecimal negative digits exponent) := by
  have ten (e : ℤ) : (0 : ℚ) < 10 ^ e := zpow_pos (by norm_num) e
  unfold ofDecimal
  dsimp only
  split
  · next tiny =>
    refine isNearest_zero negative (mul_nonneg (Nat.cast_nonneg _) (ten _).le) ?_
    by_cases none : digits = 0
    · rw [none, Nat.cast_zero, zero_mul]
      exact mul_pos one_half_pos (two_zpow_pos _)
    · have few := tiny.resolve_left none
      have least : (2 : ℚ) ^ 1075 ≤ 10 ^ 331 := by
        have : 2 ^ 1075 ≤ 10 ^ 331 := by decide +kernel
        exact_mod_cast this
      calc (digits : ℚ) * 10 ^ exponent
          < 10 ^ ((Nat.toDigits 10 digits).length : ℤ) * 10 ^ exponent :=
            mul_lt_mul_of_pos_right (toDigits_bounds none).2 (ten _)
        _ = 10 ^ ((Nat.toDigits 10 digits).length + exponent) := by
          rw [zpow_add₀ (by norm_num)]
        _ ≤ 10 ^ (-331 : ℤ) := zpow_le_zpow_right₀ (by norm_num) (by omega)
        _ ≤ 2 ^ (-1075 : ℤ) := by
          rw [zpow_neg, zpow_neg]
          exact inv_anti₀ (two_zpow_pos _) least
        _ = 1 / 2 * 2 ^ (-1074 : ℤ) := by
          rw [show (-1075 : ℤ) = -1074 - 1 from rfl, zpow_sub_one₀ two_ne_zero, mul_comm, one_div]
  · next inside =>
    have some_ : digits ≠ 0 := fun none => inside (.inl none)
    split
    · next huge =>
      have most : (2 : ℚ) ^ 1024 ≤ 10 ^ 310 := by
        have : 2 ^ 1024 ≤ 10 ^ 310 := by decide +kernel
        exact_mod_cast this
      refine .infinite ?_
      calc overflow
          ≤ 2 ^ 53 * 2 ^ (971 : ℤ) :=
            mul_le_mul_of_nonneg_right (by norm_num) (two_zpow_pos _).le
        _ = 2 ^ (1024 : ℤ) := by
          rw [← zpow_natCast, ← zpow_add₀ two_ne_zero]
          rfl
        _ ≤ 10 ^ (310 : ℤ) := most
        _ ≤ 10 ^ ((Nat.toDigits 10 digits).length - 1 + exponent) :=
          zpow_le_zpow_right₀ (by norm_num) (by omega)
        _ = 10 ^ ((Nat.toDigits 10 digits).length - 1 : ℤ) * 10 ^ exponent := by
          rw [zpow_add₀ (by norm_num)]
        _ ≤ digits * 10 ^ exponent :=
          mul_le_mul_of_nonneg_right (toDigits_bounds some_).1 (ten _).le
    · cases exponent with
      | ofNat k =>
        have nearest := isNearest_ofRatio negative (digits * 10 ^ k) one_pos
        rwa [Nat.cast_one, div_one, Nat.cast_mul, Nat.cast_pow, Nat.cast_ofNat] at nearest
      | negSucc k =>
        have nearest := isNearest_ofRatio negative digits (d := 10 ^ (k + 1)) (by positivity)
        rwa [Nat.cast_pow, Nat.cast_ofNat] at nearest

/-! ## Rounding to integers -/

/-- Integers of 53 bits are numbers of the format. -/
theorem exists_finite_of_lt (negative : Bool) {n : ℕ} (short : n < 2 ^ 53) :
    ∃ w : Finite, w.negative = negative ∧ w.magnitude = n := by
  by_cases none : n = 0
  · subst none
    exact ⟨⟨negative, 0, -1074, by decide⟩, rfl, by simp [Finite.magnitude]⟩
  · have bits : n.log2 ≤ 52 := Nat.lt_succ_iff.1 ((Nat.log2_lt none).2 short)
    obtain ⟨k, is⟩ := Nat.exists_eq_add_of_le bits
    have canonical : IsCanonical (n * 2 ^ k) (-k) := by
      have low := Nat.mul_le_mul_right (2 ^ k) (Nat.log2_self_le none)
      have high := Nat.mul_lt_mul_of_pos_right (Nat.lt_log2_self (n := n)) (Nat.two_pow_pos k)
      rw [← pow_add, ← is] at low
      rw [← pow_add, Nat.add_right_comm, ← is] at high
      exact ⟨high, by omega, by omega, .inl low⟩
    refine ⟨⟨negative, n * 2 ^ k, -k, canonical⟩, rfl, ?_⟩
    rw [Finite.magnitude, zpow_neg, zpow_natCast]
    push_cast
    exact mul_inv_cancel_right₀ (by positivity) _

theorem ofRatio_one (negative : Bool) {n : ℕ} (short : n < 2 ^ 53) :
    ∃ w : Finite, ofRatio negative n 1 = .finite w ∧ w.negative = negative ∧ w.magnitude = n := by
  obtain ⟨w, rfl, same⟩ := exists_finite_of_lt negative short
  have nearest := isNearest_ofRatio w.negative n one_pos
  rw [Nat.cast_one, div_one, ← same] at nearest
  exact ⟨w, nearest.eq_of_magnitude, rfl, same⟩

section

variable {choose : (negative : Bool) → (below remainder denominator : ℕ) → ℕ} {x : Finite}

/-- Rounding to an integer does what its choice between two of them does, and keeps the sign. The
function keeps integers as they are and is bounded like the choice. -/
theorem toIntegral_spec {f : ℚ → ℤ} (fixes : ∀ k : ℕ, f k = k)
    (chooses : ∀ n d : ℕ, 0 < d → (choose x.negative (n / d) (n % d) d : ℤ) = f (n / d))
    (bounded : ∀ below remainder denominator : ℕ,
      choose x.negative below remainder denominator ≤ below + 1) :
    ∃ y : Finite, toIntegral choose (.finite x) = .finite y ∧ y.negative = x.negative ∧
      y.magnitude = f x.magnitude := by
  obtain ⟨short, -, -, -⟩ := x.canonical
  cases is : x.exponent with
  | ofNat k =>
    refine ⟨x, ?_, rfl, ?_⟩
    · simp only [toIntegral, is]
    · have whole : x.magnitude = (x.significand * 2 ^ k : ℕ) := by
        rw [Finite.magnitude, is]
        push_cast
        rfl
      rw [whole, fixes]
      rfl
  | negSucc k =>
    have quotient : x.magnitude = (x.significand : ℚ) / (2 ^ (k + 1) : ℕ) := by
      rw [Finite.magnitude, is, zpow_negSucc, div_eq_mul_inv]
      push_cast
      rfl
    have few : x.significand / 2 ^ (k + 1) < 2 ^ 52 := by
      rw [Nat.div_lt_iff_lt_mul (by positivity)]
      calc x.significand < 2 ^ 52 * 2 ^ 1 := short
        _ ≤ 2 ^ 52 * 2 ^ (k + 1) :=
          Nat.mul_le_mul_left _ (Nat.pow_le_pow_right two_pos (by omega))
    have inside : choose x.negative (x.significand / 2 ^ (k + 1))
        (x.significand % 2 ^ (k + 1)) (2 ^ (k + 1)) < 2 ^ 53 := by
      have := bounded (x.significand / 2 ^ (k + 1)) (x.significand % 2 ^ (k + 1)) (2 ^ (k + 1))
      omega
    obtain ⟨y, rounded, sign, same⟩ := ofRatio_one x.negative inside
    refine ⟨y, ?_, sign, ?_⟩
    · simp only [toIntegral, is]
      exact rounded
    · rw [same, quotient, ← chooses _ _ (by positivity)]
      rfl

end

/-- A quotient lies above its integer part by the remainder. -/
theorem quotient_parts (n : ℕ) {d : ℕ} (positive : 0 < d) :
    ((n / d : ℕ) : ℚ) * d + (n % d : ℕ) = n ∧ ((n % d : ℕ) : ℚ) < d ∧ (0 : ℚ) < d := by
  refine ⟨?_, ?_, ?_⟩
  · exact_mod_cast Nat.div_add_mod' n d
  · exact_mod_cast Nat.mod_lt n positive
  · exact_mod_cast positive

theorem floor_quotient (n : ℕ) {d : ℕ} (positive : 0 < d) : ⌊(n : ℚ) / d⌋ = (n / d : ℕ) := by
  obtain ⟨parts, below, unit⟩ := quotient_parts n positive
  rw [Int.floor_eq_iff, Int.cast_natCast, le_div_iff₀ unit, div_lt_iff₀ unit]
  constructor <;> linarith [(Nat.cast_nonneg (n % d) : (0 : ℚ) ≤ _)]

theorem ceil_quotient (n : ℕ) {d : ℕ} (positive : 0 < d) :
    ⌈(n : ℚ) / d⌉ = if n % d ≠ 0 then (n / d + 1 : ℕ) else (n / d : ℕ) := by
  obtain ⟨parts, below, unit⟩ := quotient_parts n positive
  split
  · next rest =>
    have more : (0 : ℚ) < (n % d : ℕ) := by exact_mod_cast Nat.pos_of_ne_zero rest
    rw [Int.ceil_eq_iff, Int.cast_natCast, lt_div_iff₀ unit, div_le_iff₀ unit, Nat.cast_add_one]
    constructor <;> linarith
  · next none =>
    rw [not_not.1 none, Nat.cast_zero, add_zero] at parts
    rw [← parts, mul_div_cancel_right₀ _ unit.ne', Int.ceil_natCast]

theorem round_quotient (n : ℕ) {d : ℕ} (positive : 0 < d) :
    ⌊(n : ℚ) / d + 1 / 2⌋ = if d ≤ 2 * (n % d) then (n / d + 1 : ℕ) else (n / d : ℕ) := by
  obtain ⟨parts, below, unit⟩ := quotient_parts n positive
  have half : (n : ℚ) / d + 1 / 2 = (n + d / 2) / d := by
    rw [add_div, div_right_comm, div_self unit.ne']
  rw [half]
  split
  · next up =>
    have up : (d : ℚ) ≤ 2 * (n % d : ℕ) := by exact_mod_cast up
    rw [Int.floor_eq_iff, Int.cast_natCast, le_div_iff₀ unit, div_lt_iff₀ unit, Nat.cast_add_one]
    constructor <;> linarith
  · next down =>
    have down : 2 * ((n % d : ℕ) : ℚ) < d := by exact_mod_cast not_le.1 down
    rw [Int.floor_eq_iff, Int.cast_natCast, le_div_iff₀ unit, div_lt_iff₀ unit]
    constructor <;> linarith [(Nat.cast_nonneg (n % d) : (0 : ℚ) ≤ _)]

/-- Rounding away from zero for some signs and towards it for the others. -/
theorem toIntegral_directed (away : Bool → Prop) [DecidablePred away] (x : Finite) :
    ∃ y : Finite,
      toIntegral (fun negative below remainder _ =>
        if away negative ∧ remainder ≠ 0 then below + 1 else below) (.finite x) = .finite y ∧
      y.negative = x.negative ∧
      y.magnitude = if away x.negative then (⌈x.magnitude⌉ : ℚ) else ⌊x.magnitude⌋ := by
  by_cases outwards : away x.negative
  · rw [if_pos outwards]
    refine toIntegral_spec (fun k => Int.ceil_natCast k) (fun n d positive => ?_) fun _ _ _ => ?_
    · rw [ceil_quotient n positive]
      simp only [outwards, true_and]
    · split <;> omega
  · rw [if_neg outwards]
    refine toIntegral_spec (fun k => Int.floor_natCast k) (fun n d positive => ?_) fun _ _ _ => ?_
    · rw [floor_quotient n positive, if_neg (outwards ·.1)]
    · split <;> omega

/-- Rounding down gives the greatest integer that is not above the number. -/
theorem value_floor (x : Finite) :
    ∃ y : Finite, floor (.finite x) = .finite y ∧ y.negative = x.negative ∧
      y.value = ⌊x.value⌋ := by
  obtain ⟨y, is, sign, same⟩ := toIntegral_directed (· = true) x
  refine ⟨y, is, sign, ?_⟩
  cases negative : x.negative <;> simp [Finite.value, sign, same, negative, Int.floor_neg]

/-- Rounding up gives the least integer that is not below the number. -/
theorem value_ceil (x : Finite) :
    ∃ y : Finite, ceil (.finite x) = .finite y ∧ y.negative = x.negative ∧
      y.value = ⌈x.value⌉ := by
  obtain ⟨y, is, sign, same⟩ := toIntegral_directed (¬ · = true) x
  refine ⟨y, is, sign, ?_⟩
  cases negative : x.negative <;> simp [Finite.value, sign, same, negative, Int.ceil_neg]

/-- Rounding to the nearest integer does so with the size of a number, upwards from a half. -/
theorem magnitude_round (x : Finite) :
    ∃ y : Finite, round (.finite x) = .finite y ∧ y.negative = x.negative ∧
      y.magnitude = ⌊x.magnitude + 1 / 2⌋ := by
  refine toIntegral_spec (f := fun q => ⌊q + 1 / 2⌋) (fun k => ?_) (fun n d positive => ?_)
    fun _ _ _ => ?_
  · rw [Int.floor_natCast_add, show ⌊(1 / 2 : ℚ)⌋ = 0 by norm_num, add_zero]
  · rw [round_quotient n positive]
  · split <;> omega

end GraphScribe.Binary64
