import GraphScribe.Number.Integer
import GraphScribe.Proofs.Runs
import GraphScribe.Text.Quoted

/-!
# What quoting does to a text

Whatever a text holds, its quoted form is one line, and the text is found again in it: every
character that is written is read back, whatever follows it.

* `readEscape_escape`: a written character is read back.
* `quote_injective`: different texts have different quoted forms.
* `lineEnd_not_mem_quote`: no quoted form goes over the end of a line.
-/

namespace GraphScribe.Text

/-! ## Hexadecimal digits -/

/-- The number that hexadecimal digits stand for. -/
def hexadecimalValue (digits : List Char) : Nat :=
  digits.foldl (fun value c => 16 * value + (Integer.digit? 16 c).getD 0) 0

theorem digit?_digitChar {d : Nat} (small : d < 16) : Integer.digit? 16 d.digitChar = some d := by
  revert d
  decide

/-- Induction along the hexadecimal digits of a number, from the first to the last. -/
theorem toDigits_induction {motive : Nat → List Char → Prop}
    (one : ∀ n < 16, motive n [n.digitChar])
    (more : ∀ n, 16 ≤ n → motive (n / 16) (Nat.toDigits 16 (n / 16)) →
      motive n (Nat.toDigits 16 (n / 16) ++ [(n % 16).digitChar]))
    (n : Nat) : motive n (Nat.toDigits 16 n) := by
  induction n using Nat.strongRecOn with
  | ind n ih =>
    by_cases small : n < 16
    · rw [Nat.toDigits_of_lt_base small]
      exact one n small
    · have large : 16 ≤ n := Nat.le_of_not_lt small
      rw [Nat.toDigits_of_base_le (by decide) large]
      exact more n large (ih (n / 16) (Nat.div_lt_self (by omega) (by decide)))

theorem hexadecimalValue_toDigits (n : Nat) : hexadecimalValue (Nat.toDigits 16 n) = n := by
  induction n using toDigits_induction with
  | one n small =>
    change 16 * 0 + (Integer.digit? 16 n.digitChar).getD 0 = n
    rw [digit?_digitChar small, Nat.mul_zero, Nat.zero_add, Option.getD_some]
  | more n large ih =>
    rw [hexadecimalValue, List.foldl_append, ← hexadecimalValue, ih, List.foldl_cons, List.foldl_nil,
      digit?_digitChar (Nat.mod_lt n (by decide)), Option.getD_some, Nat.div_add_mod]

theorem digit?_of_mem_toDigits {n : Nat} {c : Char} (held : c ∈ Nat.toDigits 16 n) :
    (Integer.digit? 16 c).isSome := by
  induction n using toDigits_induction with
  | one n small =>
    cases List.mem_singleton.1 held
    rw [digit?_digitChar small]
    rfl
  | more n large ih =>
    rcases List.mem_append.1 held with before | last
    · exact ih before
    · cases List.mem_singleton.1 last
      rw [digit?_digitChar (Nat.mod_lt n (by decide))]
      rfl

theorem not_mem_toDigits {c : Char} (noDigit : Integer.digit? 16 c = none) (n : Nat) :
    c ∉ Nat.toDigits 16 n := by
  intro held
  have := digit?_of_mem_toDigits held
  rw [noDigit] at this
  cases this

/-! ## Characters -/

/-- The character that a letter behind a backslash stands for. -/
def ofEscapeLetter? : Char → Option Char
  | '0' => some '\x00'
  | 't' => some '\t'
  | 'n' => some '\n'
  | 'r' => some '\r'
  | '"' => some '"'
  | '\\' => some '\\'
  | _ => none

/-- The character at the front of a written text, and what follows it. -/
def readEscape : List Char → Option (Char × List Char)
  | [] => none
  | '\\' :: 'u' :: '\x7b' :: rest =>
    some (Char.ofNat (hexadecimalValue (rest.takeWhile (· != '\x7d'))),
      (rest.dropWhile (· != '\x7d')).tail)
  | '\\' :: letter :: rest => (ofEscapeLetter? letter).map (·, rest)
  | c :: rest => some (c, rest)

/-- A character without a visible form is read back from its code point. -/
theorem readEscape_codePoint (c : Char) (rest : List Char) :
    readEscape ('\\' :: 'u' :: '\x7b' :: (Nat.toDigits 16 c.toNat ++ '\x7d' :: rest)) =
      some (c, rest) := by
  have digits : ∀ d ∈ Nat.toDigits 16 c.toNat, (d != '\x7d') = true := fun d held =>
    bne_iff_ne.2 fun same => not_mem_toDigits (by decide) _ (same ▸ held)
  obtain ⟨run, behind⟩ := @span_append _ _ _ ('\x7d' :: rest) digits (by rintro d ⟨⟩; rfl)
  rw [readEscape, run, behind, hexadecimalValue_toDigits, Char.ofNat_toNat]
  rfl

/-- A character with a visible form stands for itself, unless it is a backslash. -/
theorem readEscape_visible {c : Char} (other : c ≠ '\\') (rest : List Char) :
    readEscape (c :: rest) = some (c, rest) := by
  rw [readEscape.eq_4 _ _ (fun _ same _ => other same) fun _ _ same _ => other same]

/-- A written character is read back, whatever follows it. -/
theorem readEscape_escape (c : Char) (rest : List Char) :
    readEscape (escape c ++ rest) = some (c, rest) := by
  unfold escape
  split
  iterate 6 rfl
  next notBackslash =>
    split
    · rw [List.append_assoc, List.append_assoc]
      exact readEscape_codePoint c rest
    · exact readEscape_visible notBackslash rest

theorem lineEnd_not_mem_escape (c : Char) : '\n' ∉ escape c := by
  unfold escape
  split
  iterate 6 decide
  next _ _ notLineEnd _ _ _ =>
    split
    · apply List.not_mem_append _ (by decide)
      exact List.not_mem_append (by decide) (not_mem_toDigits (by decide) _)
    · exact fun held => notLineEnd (List.mem_singleton.1 held).symm

/-! ## Texts -/

theorem escape_append_inj {c d : Char} {rest rest' : List Char}
    (same : escape c ++ rest = escape d ++ rest') : c = d ∧ rest = rest' := by
  have read := congrArg readEscape same
  rw [readEscape_escape, readEscape_escape] at read
  exact Prod.mk.inj (Option.some.inj read)

theorem escape_ne_nil (c : Char) : escape c ≠ [] := by
  intro empty
  have read := readEscape_escape c []
  rw [empty] at read
  cases read

theorem flatMap_escape_injective {text other : List Char}
    (same : text.flatMap escape = other.flatMap escape) : text = other := by
  induction text generalizing other with
  | nil =>
    cases other with
    | nil => rfl
    | cons d others =>
      rw [List.flatMap_cons] at same
      exact absurd (List.append_eq_nil_iff.1 same.symm).1 (escape_ne_nil d)
  | cons c rest ih =>
    cases other with
    | nil =>
      rw [List.flatMap_cons] at same
      exact absurd (List.append_eq_nil_iff.1 same).1 (escape_ne_nil c)
    | cons d others =>
      rw [List.flatMap_cons, List.flatMap_cons] at same
      obtain ⟨rfl, behind⟩ := escape_append_inj same
      rw [ih behind]

/-- Different texts have different quoted forms. -/
theorem quote_injective {text other : List Char} (same : quote text = quote other) :
    text = other := by
  have between := (List.cons.inj same).2
  exact flatMap_escape_injective (List.append_cancel_right between)

/-- No quoted form goes over the end of a line. -/
theorem lineEnd_not_mem_quote (text : List Char) : '\n' ∉ quote text := by
  apply List.not_mem_append _ (by decide)
  apply List.not_mem_cons_of_ne_of_not_mem (by decide)
  intro held
  obtain ⟨c, -, written⟩ := List.mem_flatMap.1 held
  exact lineEnd_not_mem_escape c written

end GraphScribe.Text
