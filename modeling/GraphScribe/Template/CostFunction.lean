import GraphScribe.Number.Binary64.Shortest
import GraphScribe.Template.Error

/-!
# Cost functions

A cost function scales a cost and then may round it to an integer. In a template it is written as a
ratio, a mode letter, or both.
-/

namespace GraphScribe

/-- What happens to a cost after it was scaled. -/
inductive Rounding where
  | none
  | floor
  | nearest
  | ceil
deriving DecidableEq, Repr

namespace Rounding

/-- The rounding that a mode letter stands for. -/
def ofLetter? : Char → Option Rounding
  | 'X' => some .none
  | 'F' => some .floor
  | 'R' => some .nearest
  | 'C' => some .ceil
  | _ => Option.none

/-- The mode letter of a rounding. -/
def letter : Rounding → Char
  | .none => 'X'
  | .floor => 'F'
  | .nearest => 'R'
  | .ceil => 'C'

/-- Rounds a number. -/
def apply : Rounding → Binary64 → Binary64
  | .none => id
  | .floor => Binary64.floor
  | .nearest => Binary64.round
  | .ceil => Binary64.ceil

theorem ofLetter?_letter (r : Rounding) : ofLetter? r.letter = some r := by
  cases r <;> rfl

end Rounding

/-- Multiplies by `ratio`, then rounds. -/
structure CostFunction where
  ratio : Binary64
  rounding : Rounding
deriving DecidableEq

namespace CostFunction

/-- The cost function that changes nothing. -/
def identity : CostFunction := ⟨.one, .none⟩

/-- The transformed cost. -/
def apply (f : CostFunction) (cost : Binary64) : Binary64 :=
  f.rounding.apply (cost * f.ratio)

/-- A cost function in words. -/
def describe (f : CostFunction) : List Char :=
  "ratio ".toList ++ f.ratio.text ++ ", rounding ".toList ++ [f.rounding.letter]

/-- A character that may stand in a ratio. -/
def isRatioChar (c : Char) : Bool :=
  c.isDigit || c == '.'

/-- The ratio at the front of a text, if there is one, and what follows it. The ratio is the
longest run of digits and points, and that run has to be a number. -/
def readRatio (text : List Char) : Except TemplateError (Option Binary64 × List Char) :=
  let run := text.takeWhile isRatioChar
  let rest := text.dropWhile isRatioChar
  if run.isEmpty then .ok (none, rest)
  else match Binary64.read run with
    | .ok ratio => .ok (some ratio, rest)
    | .error fault => .error (.invalidRatio run fault)

/-- The mode letter at the front of a text, if there is one, and what follows it. -/
def readMode : List Char → Option Rounding × List Char
  | [] => (none, [])
  | c :: rest =>
    match Rounding.ofLetter? c with
    | some rounding => (some rounding, rest)
    | none => (none, c :: rest)

/-- The cost function at the front of a text, if there is one, and what follows it. -/
def read (text : List Char) : Except TemplateError (Option CostFunction × List Char) :=
  match readRatio text with
  | .error e => .error e
  | .ok (ratio, afterRatio) =>
    match ratio, readMode afterRatio with
    | none, (none, rest) => .ok (none, rest)
    | _, (mode, rest) => .ok (some ⟨ratio.getD .one, mode.getD .none⟩, rest)

theorem readMode_length (text : List Char) : (readMode text).2.length ≤ text.length := by
  unfold readMode
  split
  · exact Nat.le_refl _
  · split <;> simp

theorem readRatio_length {text rest : List Char} {ratio : Option Binary64}
    (h : readRatio text = .ok (ratio, rest)) : rest.length ≤ text.length := by
  have drop := (List.dropWhile_suffix isRatioChar (l := text)).length_le
  unfold readRatio at h
  grind

/-- What follows a cost function is no longer than the whole text. -/
theorem read_length {text rest : List Char} {f : Option CostFunction}
    (h : read text = .ok (f, rest)) : rest.length ≤ text.length := by
  unfold read at h
  split at h
  · contradiction
  · next ratio afterRatio hr =>
    have := readRatio_length hr
    have := readMode_length afterRatio
    grind

end CostFunction
end GraphScribe
