import GraphScribe.Number.Integer
import GraphScribe.Template.Directive

/-!
# The text of numbers

Integers and costs are written in decimal digits by position: perhaps with a minus sign before them,
perhaps with a point and digits behind them, and never with an exponent. Integers are read back from
their text, whatever their sign and size.

* `IsPositional`: the notation, with `Integer.text_isPositional` and `Binary64.Finite.text_isPositional`.
* `Integer.readInt64_text`: an integer of 64 bits is read back.
-/

namespace GraphScribe

/-! ## Digits by position -/

/-- One or more digits. -/
structure IsDigits (text : List Char) : Prop where
  filled : text ≠ []
  digits : ∀ c ∈ text, c.isDigit = true

/-- Digits, or digits with a point and digits behind them. -/
inductive IsMagnitude : List Char → Prop
  | whole {digits : List Char} (isDigits : IsDigits digits) : IsMagnitude digits
  | fraction {digits behind : List Char} (isDigits : IsDigits digits) (more : IsDigits behind) :
    IsMagnitude (digits ++ '.' :: behind)

/-- Decimal notation by position. -/
inductive IsPositional : List Char → Prop
  | plain {text : List Char} (magnitude : IsMagnitude text) : IsPositional text
  | negative {text : List Char} (magnitude : IsMagnitude text) : IsPositional ('-' :: text)

theorem isDigits_toDigits (n : Nat) : IsDigits (Nat.toDigits 10 n) :=
  ⟨Nat.toDigits_ne_nil, fun _ held => Nat.isDigit_of_mem_toDigits (by decide) (by decide) held⟩

theorem IsMagnitude.chars {text : List Char} (magnitude : IsMagnitude text) :
    text ≠ [] ∧ ∀ c ∈ text, c.isDigit = true ∨ c = '.' := by
  cases magnitude with
  | whole isDigits => exact ⟨isDigits.filled, fun c held => .inl (isDigits.digits c held)⟩
  | fraction isDigits more =>
    refine ⟨List.append_ne_nil_of_left_ne_nil isDigits.filled _, fun c held => ?_⟩
    rcases List.mem_append.1 held with before | held
    · exact .inl (isDigits.digits c before)
    · rcases List.mem_cons.1 held with point | behind
      · exact .inr point
      · exact .inl (more.digits c behind)

/-- What stands in the notation. -/
theorem IsPositional.chars {text : List Char} (positional : IsPositional text) :
    text ≠ [] ∧ ∀ c ∈ text, c.isDigit = true ∨ c = '.' ∨ c = '-' := by
  cases positional with
  | plain magnitude =>
    exact ⟨magnitude.chars.1, fun c held => (magnitude.chars.2 c held).imp_right .inl⟩
  | negative magnitude =>
    refine ⟨List.cons_ne_nil _ _, fun c held => ?_⟩
    rcases List.mem_cons.1 held with sign | held
    · exact .inr (.inr sign)
    · exact (magnitude.chars.2 c held).imp_right .inl

/-! ## Integers -/

namespace Integer

theorem text_isPositional (i : Int) : IsPositional (text i) := by
  cases i with
  | ofNat n => exact .plain (.whole (isDigits_toDigits n))
  | negSucc n => exact .negative (.whole (isDigits_toDigits (n + 1)))

theorem digit?_of_isDigit {c : Char} (digit : c.isDigit = true) :
    digit? 10 c = some (c.toNat - '0'.toNat) := by
  have most : c.toNat ≤ 57 := (Char.isDigit_iff_toNat.1 digit).2
  have small : c.toNat - '0'.toNat < 10 := by
    have zero : '0'.toNat = 48 := rfl
    omega
  unfold digit?
  simp only [digit, if_true, Option.filter_some, decide_eq_true small]

theorem le_ofDigitChars (value : Nat) (digits : List Char) :
    value ≤ Nat.ofDigitChars 10 digits value := by
  induction digits generalizing value with
  | nil => exact Nat.le_refl value
  | cons c rest ih =>
    rw [Nat.ofDigitChars_cons]
    have := ih (10 * value + (c.toNat - '0'.toNat))
    omega

/-- Digits are read to their value if that is within the limit. The induction is on the digits; the
value so far never passes the limit because it only grows. -/
theorem readDigits_eq {limit : Nat} {fault : Fault} {digits : List Char}
    (all : ∀ c ∈ digits, c.isDigit = true) (value : Nat)
    (within : Nat.ofDigitChars 10 digits value ≤ limit) :
    readDigits 10 limit fault value digits = .ok (Nat.ofDigitChars 10 digits value) := by
  induction digits generalizing value with
  | nil => rfl
  | cons c rest ih =>
    obtain ⟨digit, others⟩ := List.forall_mem_cons.1 all
    rw [Nat.ofDigitChars_cons] at within ⊢
    have grown := le_ofDigitChars (10 * value + (c.toNat - '0'.toNat)) rest
    have fits : ¬ limit < value * 10 + (c.toNat - '0'.toNat) := by omega
    rw [readDigits, digit?_of_isDigit digit]
    dsimp only
    rw [if_neg fits, Nat.mul_comm value 10]
    exact ih others _ within

theorem readDigits_toDigits {limit n : Nat} {fault : Fault} (within : n ≤ limit) :
    readDigits 10 limit fault 0 (Nat.toDigits 10 n) = .ok n := by
  have value : Nat.ofDigitChars 10 (Nat.toDigits 10 n) 0 = n :=
    Nat.ofDigitChars_toDigits (by decide) (by decide)
  have read : readDigits 10 limit fault 0 (Nat.toDigits 10 n) = _ :=
    readDigits_eq (isDigits_toDigits n).digits 0 (value.symm ▸ within)
  rwa [value] at read

/-- A text that begins with a digit has no sign. -/
theorem readInt64_of_isDigits {digits : List Char} (isDigits : IsDigits digits) :
    readInt64 digits =
      (readDigits 10 0x7FFFFFFFFFFFFFFF .tooLarge 0 digits).map fun n => Int64.ofInt n := by
  have noSign (sign : Char) (other : sign.isDigit = false) (rest : List Char) :
      digits ≠ sign :: rest := by
    rintro rfl
    exact absurd (isDigits.digits sign List.mem_cons_self) (by simp [other])
  unfold readInt64
  split
  · exact absurd rfl isDigits.filled
  · exact absurd rfl (noSign '+' rfl [])
  · exact absurd rfl (noSign '-' rfl [])
  · next rest _ => exact absurd rfl (noSign '-' rfl rest)
  · next rest _ => exact absurd rfl (noSign '+' rfl rest)
  · rfl

theorem readInt64_negative {digits : List Char} (isDigits : IsDigits digits) :
    readInt64 ('-' :: digits) =
      (readDigits 10 0x8000000000000000 .tooSmall 0 digits).map fun n => Int64.ofInt (-n) := by
  obtain ⟨c, rest, rfl⟩ := List.exists_cons_of_ne_nil isDigits.filled
  rfl

/-- An integer of 64 bits is read back from its text. -/
theorem readInt64_text (i : Int64) : readInt64 (text i.toInt) = .ok i := by
  have low := i.le_toInt
  have high := i.toInt_lt
  cases value : i.toInt with
  | ofNat n =>
    have within : n ≤ 0x7FFFFFFFFFFFFFFF := by
      rw [value, Int.ofNat_eq_natCast] at high
      omega
    rw [text, readInt64_of_isDigits (isDigits_toDigits n), readDigits_toDigits within]
    exact congrArg Except.ok ((congrArg Int64.ofInt value.symm).trans i.ofInt_toInt)
  | negSucc n =>
    have within : n + 1 ≤ 0x8000000000000000 := by
      rw [value] at low
      omega
    rw [text, readInt64_negative (isDigits_toDigits (n + 1)), readDigits_toDigits within]
    exact congrArg Except.ok ((congrArg Int64.ofInt value.symm).trans i.ofInt_toInt)

end Integer

/-! ## Costs -/

namespace Binary64

/-- Trimming takes digits away, but only if some are left is there a fraction. -/
theorem Digits.positional_isMagnitude (d : Digits) : IsMagnitude d.positional := by
  unfold positional
  split
  · exact .whole (isDigits_toDigits _)
  · next k _ =>
    dsimp only
    split
    · exact .whole (isDigits_toDigits _)
    · next filled =>
      refine .fraction (isDigits_toDigits _) ⟨fun none => filled (none ▸ rfl), fun c held => ?_⟩
      have shown := (List.dropWhile_suffix _).subset (List.mem_reverse.1 held)
      have dropped := List.mem_of_mem_drop (List.mem_reverse.1 shown)
      exact (isDigits_toDigits _).digits c dropped

theorem Finite.text_isPositional (x : Finite) : IsPositional x.text := by
  have magnitude : IsMagnitude (if x.significand = 0 then ['0'] else x.shortest.positional) := by
    split
    · exact .whole (isDigits_toDigits 0)
    · exact x.shortest.positional_isMagnitude
  unfold text
  dsimp only
  split
  · exact .negative magnitude
  · exact .plain magnitude

end Binary64
end GraphScribe
