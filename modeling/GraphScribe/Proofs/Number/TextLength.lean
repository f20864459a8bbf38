import GraphScribe.Number.Binary64.Shortest
import GraphScribe.Number.Integer
import Mathlib.Algebra.Group.Nat.Defs

/-!
# How long the text of a number is

Numbers are written without an exponent, so those of the 64-bit format may take some hundreds of
characters, but never more than that: the digits and the place of the last one are bounded by the
largest and the least exponent.

* `Integer.length_text_le`: the text of an integer, by a power of ten above it.
* `Binary64.length_text_le`: the text of a number of the format.
-/

namespace GraphScribe

theorem length_toDigits_le {n count : Nat} (some : 0 < count) (small : n < 10 ^ count) :
    (Nat.toDigits 10 n).length ≤ count :=
  (Nat.length_toDigits_le_iff (by decide) some).2 small

theorem Integer.length_text_le {i : Int} {count : Nat} (some : 0 < count)
    (small : i.natAbs < 10 ^ count) : (Integer.text i).length ≤ count + 1 := by
  cases i with
  | ofNat n => exact Nat.le_succ_of_le (length_toDigits_le some small)
  | negSucc n => exact Nat.succ_le_succ (length_toDigits_le some small)

namespace Binary64

/-! ## Digits -/

/-- What an interval's value comes to in units of a place, at most. -/
def Interval.most (i : Interval) (place : Int) : Nat :=
  i.value * (unitRatio i.exponent place).1

theorem Interval.candidate?_le {i : Interval} {place : Int} {k : Nat}
    (found : i.candidate? place = some k) : k ≤ i.most place + 1 := by
  have below : i.value * (unitRatio i.exponent place).1 / (unitRatio i.exponent place).2 ≤
      i.most place := Nat.div_le_self _ _
  simp only [candidate?] at found
  split at found
  · split at found <;> cases found <;> omega
  · cases found
    omega
  · cases found
    omega
  · cases found

/-- The places and the digits that a search may end with. -/
theorem Interval.search_spec (i : Interval) (count : Nat) (place : Int) :
    place - count ≤ (i.search count place).place ∧ (i.search count place).place ≤ place ∧
      (i.search count place).digits ≤ i.most (i.search count place).place + 1 := by
  induction count generalizing place with
  | zero => exact ⟨by simp [search], Int.le_refl _, Nat.le_succ_of_le (Nat.div_le_self _ _)⟩
  | succ count ih =>
    rw [search]
    split
    · next k found => exact ⟨by simp only; omega, Int.le_refl _, candidate?_le found⟩
    · obtain ⟨least, most, digits⟩ := ih (place - 1)
      exact ⟨by omega, by omega, digits⟩

/-- An interval of the format: its value has 55 bits, and its exponent is not too large. -/
structure Interval.IsNarrow (i : Interval) : Prop where
  value : i.value < 2 ^ 55
  exponent : i.exponent ≤ 969

theorem Finite.isNarrow (x : Finite) : x.interval.IsNarrow := by
  obtain ⟨negative, significand, exponent, small, -, most, -⟩ := x
  refine ⟨?_, ?_⟩
  · have bound : significand < 2 ^ 53 := small
    change 4 * significand < 2 ^ 55
    omega
  · change exponent - 2 ≤ 969
    omega

/-- A number of the format has no more than 1024 digits before the point. -/
theorem Interval.IsNarrow.most_lt {i : Interval} (narrow : i.IsNarrow) {count : Nat}
    (room : 1024 ≤ count) (place : Int) : i.most place < 10 ^ (count + (-place).toNat) := by
  have exponent := narrow.exponent
  have value : i.value * 2 ^ i.exponent.toNat < 10 ^ count :=
    calc i.value * 2 ^ i.exponent.toNat < 2 ^ 55 * 2 ^ i.exponent.toNat :=
          Nat.mul_lt_mul_of_pos_right narrow.value (Nat.pow_pos (by decide))
      _ = 2 ^ (55 + i.exponent.toNat) := (Nat.pow_add _ _ _).symm
      _ ≤ 2 ^ count := Nat.pow_le_pow_right (by decide) (by omega)
      _ ≤ 10 ^ count := Nat.pow_le_pow_left (by decide) count
  calc i.most place = i.value * 2 ^ i.exponent.toNat * 10 ^ (-place).toNat :=
        (Nat.mul_assoc _ _ _).symm
    _ < 10 ^ count * 10 ^ (-place).toNat :=
        Nat.mul_lt_mul_of_pos_right value (Nat.pow_pos (by decide))
    _ = 10 ^ (count + (-place).toNat) := (Nat.pow_add _ _ _).symm

theorem Interval.IsNarrow.magnitude {i : Interval} (narrow : i.IsNarrow) {count : Nat}
    (room : 1024 ≤ count) : -340 ≤ i.magnitude ∧ i.magnitude ≤ count := by
  have whole : i.value * (unitRatio i.exponent (-340)).1 / (unitRatio i.exponent (-340)).2 <
      10 ^ (count + 340) :=
    Nat.lt_of_le_of_lt (Nat.div_le_self _ _) (narrow.most_lt room (-340))
  have length := length_toDigits_le (Nat.succ_pos _) whole
  simp only [Interval.magnitude]
  omega

/-- The shortest digits of a number are not too many, and lie at places of the format. -/
theorem Finite.shortest_spec (x : Finite) {count : Nat} (room : 1024 ≤ count) :
    -358 ≤ x.shortest.place ∧ x.shortest.place ≤ count ∧
      x.shortest.digits < 10 ^ (count + 359) := by
  obtain ⟨low, high⟩ := x.isNarrow.magnitude room
  obtain ⟨least, most, digits⟩ := x.interval.search_spec 17 (x.interval.magnitude - 1)
  change _ ≤ x.shortest.place at least
  change x.shortest.place ≤ _ at most
  change x.shortest.digits ≤ x.interval.most x.shortest.place + 1 at digits
  refine ⟨by omega, by omega, ?_⟩
  calc x.shortest.digits ≤ x.interval.most x.shortest.place + 1 := digits
    _ ≤ 10 ^ (count + (-x.shortest.place).toNat) := x.isNarrow.most_lt room _
    _ < 10 ^ (count + 359) := Nat.pow_lt_pow_right (by decide) (by omega)

/-! ## Texts -/

/-- Digits with zeros behind them, or with a fraction. -/
theorem Digits.length_positional_le {d : Digits} {count : Nat} (some : 0 < count)
    (few : d.digits < 10 ^ count) : d.positional.length ≤ count + 1 + d.place.natAbs := by
  unfold positional
  split
  · next k place =>
    have zeros : d.digits * Nat.pow 10 k < 10 ^ (count + k) := by
      rw [Nat.pow_add]
      exact Nat.mul_lt_mul_of_pos_right few (Nat.pow_pos (by decide))
    have length := length_toDigits_le (by omega) zeros
    rw [place]
    simp only [Int.ofNat_eq_natCast, Int.natAbs_natCast]
    omega
  · next k place =>
    have whole := length_toDigits_le some
      (Nat.lt_of_le_of_lt (Nat.div_le_self d.digits (Nat.pow 10 (k + 1))) few)
    have unit : Nat.pow 10 (k + 1) + d.digits % Nat.pow 10 (k + 1) < 10 ^ (k + 2) := by
      have less : d.digits % 10 ^ (k + 1) < 10 ^ (k + 1) := Nat.mod_lt _ (Nat.pow_pos (by decide))
      change 10 ^ (k + 1) + d.digits % 10 ^ (k + 1) < 10 ^ (k + 1) * 10
      omega
    have fraction := length_toDigits_le (by omega) unit
    have trimmed (text : List Char) :
        (text.reverse.dropWhile (· == '0')).reverse.length ≤ text.length := by
      have shorter := (List.dropWhile_suffix (· == '0') (l := text.reverse)).length_le
      simpa using shorter
    have shown := trimmed ((Nat.toDigits 10
      (Nat.pow 10 (k + 1) + d.digits % Nat.pow 10 (k + 1))).drop 1)
    rw [List.length_drop] at shown
    rw [place]
    dsimp only
    split
    · omega
    · rw [List.length_append, List.length_cons]
      simp only [Int.natAbs_negSucc]
      omega

/-- The text of a number of the format is short. -/
theorem length_text_le (x : Binary64) : x.text.length ≤ 3000 := by
  cases x with
  | nan => decide
  | infinite negative => cases negative <;> decide
  | finite x =>
    obtain ⟨count, is⟩ : ∃ count, count = 1024 := ⟨_, rfl⟩
    obtain ⟨least, most, few⟩ := x.shortest_spec (Nat.le_of_eq is.symm)
    have positional := Digits.length_positional_le (Nat.succ_pos _) few
    have magnitude : (if x.significand = 0 then ['0'] else x.shortest.positional).length ≤ 2999 := by
      split
      · decide
      · omega
    simp only [text, Finite.text]
    split
    · exact Nat.succ_le_succ magnitude
    · omega

end Binary64
end GraphScribe
