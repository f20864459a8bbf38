import GraphScribe.Proofs.Runs
import GraphScribe.Template

/-!
# The grammar of templates

A template is a sequence of parts: runs of characters without a percent sign, and directives, which
begin with one. A directive is one of four single letters, or a list with a ratio, a mode and a verb,
the first two of which may be left out.

* `Ratio.read_run`, `Ratio.of_read`: the runs of digits and points that are numbers are the ratios.
* `Part.read_append`: a directive is read back, whatever follows it.
* `Template.compile_iff`: compiling accepts exactly the texts that split into parts and gives the
  directives of the parts in order, and a text splits in one way at most.
-/

namespace GraphScribe

/-! ## Ratios -/

/-- A run of digits and points that holds at least one digit and at most one point. -/
structure Ratio where
  run : List Char
  chars : ∀ c ∈ run, CostFunction.isRatioChar c = true
  digit : ∃ c ∈ run, c.isDigit = true
  point : run.count '.' ≤ 1

namespace Ratio

/-- The number of digits after the point. -/
def fractionLength (run : List Char) : Nat :=
  ((run.dropWhile (· != '.')).drop 1).length

/-- The value of a ratio: the number nearest to the decimal that it spells. -/
def value (r : Ratio) : Binary64 :=
  .ofDecimal false (Nat.ofDigitChars 10 (r.run.filter Char.isDigit) 0) (-fractionLength r.run)

theorem point_of_not_digit {c : Char} (char : CostFunction.isRatioChar c = true)
    (other : ¬ c.isDigit = true) : c = '.' := by
  unfold CostFunction.isRatioChar at char
  rcases Bool.or_eq_true_iff.1 char with digit | point
  · exact (other digit).elim
  · exact eq_of_beq point

theorem all_digits {run : List Char} (chars : ∀ c ∈ run, CostFunction.isRatioChar c = true)
    (noPoint : '.' ∉ run) : ∀ c ∈ run, c.isDigit = true := by
  intro c held
  by_cases digit : c.isDigit = true
  · exact digit
  · exact (noPoint (point_of_not_digit (chars c held) digit ▸ held)).elim

/-- A run of digits and points is a run of digits, or it has a first point. -/
theorem split_point {run : List Char} (chars : ∀ c ∈ run, CostFunction.isRatioChar c = true) :
    (∀ c ∈ run, c.isDigit = true) ∨
      ∃ whole after, (∀ c ∈ whole, c.isDigit = true) ∧ run = whole ++ '.' :: after := by
  by_cases point : '.' ∈ run
  · obtain ⟨whole, after, rfl, first⟩ := List.eq_append_cons_of_mem point
    have wholeChars : ∀ c ∈ whole, CostFunction.isRatioChar c = true :=
      fun c held => chars c (List.mem_append_left _ held)
    exact .inr ⟨whole, after, all_digits wholeChars first, rfl⟩
  · exact .inl (all_digits chars point)

theorem count_point {run : List Char} (digits : ∀ c ∈ run, c.isDigit = true) :
    run.count '.' = 0 :=
  List.count_eq_zero.2 fun held => nomatch digits '.' held

theorem no_point {run : List Char} (digits : ∀ c ∈ run, c.isDigit = true) :
    ∀ c ∈ run, (c != '.') = true := by
  intro c held
  refine bne_iff_ne.2 fun point => ?_
  have digit := digits c held
  rw [point] at digit
  cases digit

theorem point_stops (rest : List Char) (c : Char) (head : ('.' :: rest).head? = some c) :
    c.isDigit = false := by
  cases head
  rfl

theorem toLower_ratioChar {c : Char} (char : CostFunction.isRatioChar c = true) :
    c.toLower = c := by
  have small : ¬ (c.val ≥ 'A'.val ∧ c.val ≤ 'Z'.val) := by
    intro ⟨upper, _⟩
    unfold CostFunction.isRatioChar at char
    rcases Bool.or_eq_true_iff.1 char with digit | point
    · have low := (Char.isDigit_iff_toNat.1 digit).2
      have high : 'A'.toNat ≤ c.toNat := UInt32.le_iff_toNat_le.1 upper
      exact absurd (Nat.le_trans high low) (by decide)
    · rw [eq_of_beq point] at upper
      exact absurd upper (by decide)
  exact dif_neg small

theorem splitSign_of_char {c : Char} (char : CostFunction.isRatioChar c = true) (rest : List Char) :
    Binary64.splitSign (c :: rest) = (false, c :: rest) := by
  unfold Binary64.splitSign
  split
  · next head => cases head; cases char
  · next head => cases head; cases char
  · rfl

theorem readWord_of_char {c : Char} (char : CostFunction.isRatioChar c = true) (rest : List Char) :
    Binary64.readWord false (c :: rest) = none := by
  have other {word : String} {first : Char} {others : List Char}
      (spelled : word.toList = first :: others)
      (letter : CostFunction.isRatioChar first = false) :
      ¬ String.ofList ((c :: rest).map Char.toLower) = word := by
    intro same
    have lists := congrArg String.toList same
    rw [String.toList_ofList, spelled, List.map_cons, toLower_ratioChar char] at lists
    rw [(List.cons.inj lists).1, letter] at char
    cases char
  have inf : ¬ String.ofList ((c :: rest).map Char.toLower) = "inf" := other rfl rfl
  have infinity : ¬ String.ofList ((c :: rest).map Char.toLower) = "infinity" := other rfl rfl
  have nan : ¬ String.ofList ((c :: rest).map Char.toLower) = "nan" := other rfl rfl
  exact (if_neg (not_or.2 ⟨inf, infinity⟩)).trans (if_neg nan)

/-- A run of digits and points has no sign and is no word. -/
theorem read_of_chars {run : List Char} (chars : ∀ c ∈ run, CostFunction.isRatioChar c = true)
    (nonempty : run ≠ []) :
    Binary64.read run =
      match Binary64.readDecimal false run with
      | some value => .ok value
      | none => .error .invalid := by
  obtain ⟨c, rest, rfl⟩ := List.exists_cons_of_ne_nil nonempty
  have char := chars c List.mem_cons_self
  unfold Binary64.read
  rw [splitSign_of_char char]
  dsimp only
  rw [readWord_of_char char]
  cases Binary64.readDecimal false (c :: rest) <;> rfl

/-- A run of digits is a number. -/
theorem readDecimal_digits {run : List Char} (digits : ∀ c ∈ run, c.isDigit = true)
    (nonempty : run ≠ []) :
    Binary64.readDecimal false run =
      some (.ofDecimal false (Nat.ofDigitChars 10 (run.filter Char.isDigit) 0)
        (-fractionLength run)) := by
  have pointless : fractionLength run = 0 := by
    unfold fractionLength
    rw [(span_all (no_point digits)).2]
    rfl
  unfold Binary64.readDecimal
  rw [(span_all digits).1, (span_all digits).2, pointless, List.filter_eq_self.2 digits]
  obtain ⟨c, rest, rfl⟩ := List.exists_cons_of_ne_nil nonempty
  simp only [List.append_nil]
  rfl

theorem readDecimal_split {whole : List Char} (wholeDigits : ∀ c ∈ whole, c.isDigit = true)
    (after : List Char) :
    Binary64.readDecimal false (whole ++ '.' :: after) =
      if whole.isEmpty ∧ (after.takeWhile Char.isDigit).isEmpty then none
      else (Binary64.readExponent (after.dropWhile Char.isDigit)).map fun exponent =>
        .ofDecimal false (Nat.ofDigitChars 10 (whole ++ after.takeWhile Char.isDigit) 0)
          (exponent - (after.takeWhile Char.isDigit).length) := by
  have span := span_append wholeDigits (point_stops after)
  unfold Binary64.readDecimal
  rw [span.1, span.2]
  rfl

/-- A run with one point is a number if there is a digit. -/
theorem readDecimal_point {whole fraction : List Char}
    (wholeDigits : ∀ c ∈ whole, c.isDigit = true)
    (fractionDigits : ∀ c ∈ fraction, c.isDigit = true) :
    Binary64.readDecimal false (whole ++ '.' :: fraction) =
      if whole.isEmpty ∧ fraction.isEmpty then none
      else some (.ofDecimal false
        (Nat.ofDigitChars 10 ((whole ++ '.' :: fraction).filter Char.isDigit) 0)
        (-fractionLength (whole ++ '.' :: fraction))) := by
  have length : fractionLength (whole ++ '.' :: fraction) = fraction.length := by
    have stops (c : Char) (head : ('.' :: fraction).head? = some c) : (c != '.') = false := by
      cases head
      rfl
    unfold fractionLength
    rw [(span_append (no_point wholeDigits) stops).2]
    rfl
  have kept : (whole ++ '.' :: fraction).filter Char.isDigit = whole ++ fraction := by
    rw [List.filter_append, List.filter_eq_self.2 wholeDigits, List.filter_cons,
      List.filter_eq_self.2 fractionDigits]
    rfl
  rw [readDecimal_split wholeDigits, (span_all fractionDigits).1, (span_all fractionDigits).2,
    length, kept, ← Int.zero_sub]
  rfl

/-- A run with two points is no number. -/
theorem readDecimal_points {whole fraction : List Char}
    (wholeDigits : ∀ c ∈ whole, c.isDigit = true)
    (fractionDigits : ∀ c ∈ fraction, c.isDigit = true) (more : List Char) :
    Binary64.readDecimal false (whole ++ '.' :: (fraction ++ '.' :: more)) = none := by
  have span := span_append fractionDigits (point_stops more)
  rw [readDecimal_split wholeDigits, span.1, span.2]
  split <;> rfl

theorem nonempty (r : Ratio) : r.run ≠ [] := by
  obtain ⟨c, held, -⟩ := r.digit
  exact List.ne_nil_of_mem held

/-- A ratio is a number, and this is its value. -/
theorem read_run (r : Ratio) : Binary64.read r.run = .ok r.value := by
  rw [read_of_chars r.chars r.nonempty, value]
  obtain ⟨run, chars, digit, point⟩ := r
  dsimp only
  rcases split_point chars with digits | ⟨whole, after, wholeDigits, rfl⟩
  · rw [readDecimal_digits digits (List.ne_nil_of_mem digit.choose_spec.1)]
  · have once : '.' ∉ after := by
      intro held
      rw [List.count_append, List.count_cons_self] at point
      have := List.count_pos_iff.2 held
      omega
    have afterChars : ∀ c ∈ after, CostFunction.isRatioChar c = true :=
      fun c held => chars c (List.mem_append_right _ (List.mem_cons_of_mem _ held))
    have digitful : ¬ (whole.isEmpty ∧ after.isEmpty) := by
      intro ⟨noWhole, noAfter⟩
      obtain ⟨c, held, isDigit⟩ := digit
      rw [List.isEmpty_iff.1 noWhole, List.isEmpty_iff.1 noAfter] at held
      rw [List.mem_singleton.1 held] at isDigit
      cases isDigit
    rw [readDecimal_point wholeDigits (all_digits afterChars once), if_neg digitful]

/-- A run of digits and points that is a number is a ratio. -/
theorem of_read {run : List Char} {value : Binary64}
    (chars : ∀ c ∈ run, CostFunction.isRatioChar c = true)
    (read : Binary64.read run = .ok value) : ∃ r : Ratio, r.run = run ∧ r.value = value := by
  have nonempty : run ≠ [] := by
    rintro rfl
    cases read
  suffices holds : (∃ c ∈ run, c.isDigit = true) ∧ run.count '.' ≤ 1 by
    refine ⟨⟨run, chars, holds.1, holds.2⟩, rfl, ?_⟩
    exact Except.ok.inj ((read_run ⟨run, chars, holds.1, holds.2⟩).symm.trans read)
  rw [read_of_chars chars nonempty] at read
  rcases split_point chars with digits | ⟨whole, after, wholeDigits, rfl⟩
  · obtain ⟨c, rest, rfl⟩ := List.exists_cons_of_ne_nil nonempty
    refine ⟨⟨c, List.mem_cons_self, digits c List.mem_cons_self⟩, ?_⟩
    rw [count_point digits]
    exact Nat.zero_le 1
  · have afterChars : ∀ c ∈ after, CostFunction.isRatioChar c = true :=
      fun c held => chars c (List.mem_append_right _ (List.mem_cons_of_mem _ held))
    rcases split_point afterChars with digits | ⟨fraction, more, fractionDigits, rfl⟩
    · constructor
      · rw [readDecimal_point wholeDigits digits] at read
        cases whole with
        | cons c others => exact ⟨c, List.mem_cons_self, wholeDigits c List.mem_cons_self⟩
        | nil =>
          cases after with
          | nil => cases read
          | cons c others =>
            exact ⟨c, List.mem_cons_of_mem _ List.mem_cons_self, digits c List.mem_cons_self⟩
      · have one : (whole ++ '.' :: after).count '.' = 1 := by
          rw [List.count_append, List.count_cons_self, count_point wholeDigits, count_point digits]
        exact Nat.le_of_eq one
    · have nothing := readDecimal_points wholeDigits fractionDigits more
      simp only [nothing, reduceCtorEq] at read

end Ratio

/-! ## Parts -/

/-- What a list directive lists. -/
inductive ListVerb where
  | costs
  | nodes
  | edges
deriving DecidableEq, Repr

/-- The letter of a list directive. -/
def ListVerb.letter : ListVerb → Char
  | costs => 'w'
  | nodes => 'N'
  | edges => 'M'

/-- A run of characters that are copied. -/
structure LiteralRun where
  run : List Char
  nonempty : run ≠ []
  plain : ∀ c ∈ run, Template.isLiteral c = true

/-- A part of a template. -/
inductive Part where
  | literal (l : LiteralRun)
  | percent
  | nodeCount
  | edgeCount
  | adjacencyMatrix
  | list (ratio : Option Ratio) (mode : Option Rounding) (verb : ListVerb)

namespace Part

/-- The text of a ratio, which may be left out. -/
def ratioText : Option Ratio → List Char
  | none => []
  | some ratio => ratio.run

/-- The text of a mode, which may be left out. -/
def modeText : Option Rounding → List Char
  | none => []
  | some mode => [mode.letter]

/-- The cost function of a list directive, unless both its parts are left out. -/
def costFunction? : Option Ratio → Option Rounding → Option CostFunction
  | none, none => none
  | ratio, mode => some ⟨(ratio.map Ratio.value).getD .one, mode.getD .none⟩

/-- What follows the percent sign of a directive; the text of a literal run. -/
def body : Part → List Char
  | literal l => l.run
  | percent => ['%']
  | nodeCount => ['n']
  | edgeCount => ['m']
  | adjacencyMatrix => ['a']
  | list ratio mode verb => ratioText ratio ++ (modeText mode ++ [verb.letter])

/-- The part is a literal run. -/
def isLiteral : Part → Bool
  | literal _ => true
  | _ => false

/-- A part as it stands in a template. -/
def spelling (p : Part) : List Char :=
  if p.isLiteral then p.body else '%' :: p.body

/-- The directive of a part. -/
def directive : Part → Directive
  | literal l => .text l.run
  | percent => .text ['%']
  | nodeCount => .nodeCount
  | edgeCount => .edgeCount
  | adjacencyMatrix => .adjacencyMatrix
  | list ratio mode .costs => .costs ((costFunction? ratio mode).getD .identity)
  | list ratio mode .nodes => .nodes (costFunction? ratio mode)
  | list ratio mode .edges => .edges (costFunction? ratio mode)

/-! ## Reading parts -/

theorem letter_of_ofLetter? {c : Char} {mode : Rounding} (read : Rounding.ofLetter? c = some mode) :
    c = mode.letter := by
  unfold Rounding.ofLetter? at read
  split at read <;> cases read <;> rfl

theorem readRatio_append (ratio : Option Ratio) {rest : List Char}
    (stops : ∀ c, rest.head? = some c → CostFunction.isRatioChar c = false) :
    CostFunction.readRatio (ratioText ratio ++ rest) = .ok (ratio.map Ratio.value, rest) := by
  unfold CostFunction.readRatio
  cases ratio with
  | none =>
    have span := @span_append _ CostFunction.isRatioChar [] rest (fun c held => nomatch held) stops
    rw [ratioText, span.1, span.2]
    rfl
  | some ratio =>
    have span := span_append ratio.chars stops
    rw [ratioText, span.1, span.2]
    dsimp only
    rw [ratio.read_run]
    have filled : ¬ ratio.run.isEmpty = true := fun empty =>
      ratio.nonempty (List.isEmpty_iff.1 empty)
    exact if_neg filled

theorem readMode_append (mode : Option Rounding) (verb : ListVerb) (rest : List Char) :
    CostFunction.readMode (modeText mode ++ verb.letter :: rest) = (mode, verb.letter :: rest) := by
  cases mode with
  | none => cases verb <;> rfl
  | some mode => cases mode <;> rfl

/-- A ratio ends where the mode or the verb begins. -/
theorem tail_stops (mode : Option Rounding) (verb : ListVerb) (rest : List Char) (c : Char)
    (head : (modeText mode ++ verb.letter :: rest).head? = some c) :
    CostFunction.isRatioChar c = false := by
  cases mode with
  | none => cases verb <;> cases head <;> rfl
  | some mode => cases mode <;> cases head <;> rfl

/-- The cost function of a list directive is read back. -/
theorem readCost_append (ratio : Option Ratio) (mode : Option Rounding) (verb : ListVerb)
    (rest : List Char) :
    CostFunction.read (ratioText ratio ++ (modeText mode ++ verb.letter :: rest)) =
      .ok (costFunction? ratio mode, verb.letter :: rest) := by
  unfold CostFunction.read
  rw [readRatio_append ratio (tail_stops mode verb rest)]
  dsimp only
  rw [readMode_append]
  cases ratio <;> cases mode <;> rfl

/-- The character is not one of the single letters. -/
def BeginsList (c : Char) : Prop :=
  c ≠ '%' ∧ c ≠ 'n' ∧ c ≠ 'm' ∧ c ≠ 'a'

theorem beginsList_of_ratioChar {c : Char} (char : CostFunction.isRatioChar c = true) :
    BeginsList c := by
  refine ⟨?_, ?_, ?_, ?_⟩ <;> rintro rfl <;> cases char

/-- A list directive begins with none of the single letters. -/
theorem exists_list_head (ratio : Option Ratio) (mode : Option Rounding) (verb : ListVerb)
    (rest : List Char) :
    ∃ c others, BeginsList c ∧
      ratioText ratio ++ (modeText mode ++ verb.letter :: rest) = c :: others := by
  cases ratio with
  | none =>
    cases mode with
    | none =>
      refine ⟨verb.letter, rest, ?_, rfl⟩
      cases verb <;> exact ⟨by decide, by decide, by decide, by decide⟩
    | some mode =>
      refine ⟨mode.letter, verb.letter :: rest, ?_, rfl⟩
      cases mode <;> exact ⟨by decide, by decide, by decide, by decide⟩
  | some ratio =>
    obtain ⟨c, others, run⟩ := List.exists_cons_of_ne_nil ratio.nonempty
    refine ⟨c, others ++ (modeText mode ++ verb.letter :: rest), ?_, ?_⟩
    · exact beginsList_of_ratioChar (ratio.chars c (run ▸ List.mem_cons_self))
    · rw [ratioText, run, List.cons_append]

/-- What begins with none of the single letters is read as a list directive. -/
theorem read_of_beginsList {c : Char} (begins : BeginsList c) (text : List Char) :
    Directive.read (c :: text) =
      match CostFunction.read (c :: text) with
      | .error e => .error e
      | .ok (_, []) => .error (.missingVerb ('%' :: c :: text))
      | .ok (f, 'w' :: rest) => .ok (.costs (f.getD .identity), rest)
      | .ok (f, 'N' :: rest) => .ok (.nodes f, rest)
      | .ok (f, 'M' :: rest) => .ok (.edges f, rest)
      | .ok (_, verb :: rest) =>
        .error (.invalidVerb ('%' :: (c :: text).take ((c :: text).length - rest.length)) verb) := by
  obtain ⟨percent, n, m, a⟩ := begins
  unfold Directive.read
  split
  · next head => cases head
  · next head => exact absurd (List.cons.inj head).1 percent
  · next head => exact absurd (List.cons.inj head).1 n
  · next head => exact absurd (List.cons.inj head).1 m
  · next head => exact absurd (List.cons.inj head).1 a
  · rfl

theorem read_of_cost {c : Char} {text rest : List Char} (begins : BeginsList c)
    {ratio : Option Ratio} {mode : Option Rounding} {verb : ListVerb}
    (cost : CostFunction.read (c :: text) = .ok (costFunction? ratio mode, verb.letter :: rest)) :
    Directive.read (c :: text) = .ok ((list ratio mode verb).directive, rest) := by
  rw [read_of_beginsList begins, cost]
  cases verb <;> rfl

/-- A directive is read back, whatever follows it. -/
theorem read_append {p : Part} (directive : p.isLiteral = false) (rest : List Char) :
    Directive.read (p.body ++ rest) = .ok (p.directive, rest) := by
  cases p with
  | literal l => cases directive
  | percent => rfl
  | nodeCount => rfl
  | edgeCount => rfl
  | adjacencyMatrix => rfl
  | list ratio mode verb =>
    rw [body, List.append_assoc, List.append_assoc, List.singleton_append]
    have cost := readCost_append ratio mode verb rest
    obtain ⟨c, others, begins, head⟩ := exists_list_head ratio mode verb rest
    rw [head] at cost ⊢
    exact read_of_cost begins cost

/-! ## What is read is a part -/

theorem readRatio_spells {text rest : List Char} {value : Option Binary64}
    (read : CostFunction.readRatio text = .ok (value, rest)) :
    ∃ ratio : Option Ratio, text = ratioText ratio ++ rest ∧ value = ratio.map Ratio.value := by
  unfold CostFunction.readRatio at read
  have whole := List.takeWhile_append_dropWhile (p := CostFunction.isRatioChar) (l := text)
  dsimp only at read
  split at read
  · next empty =>
    cases read
    refine ⟨none, ?_, rfl⟩
    rw [List.isEmpty_iff.1 empty] at whole
    exact whole.symm
  · split at read
    · next value' valueRead =>
      cases read
      have chars : ∀ c ∈ text.takeWhile CostFunction.isRatioChar,
          CostFunction.isRatioChar c = true := List.all_eq_true.1 List.all_takeWhile
      obtain ⟨ratio, run, value⟩ := Ratio.of_read chars valueRead
      refine ⟨some ratio, ?_, congrArg some value.symm⟩
      rw [ratioText, run, whole]
    · cases read

theorem readMode_spells {text rest : List Char} {mode : Option Rounding}
    (read : CostFunction.readMode text = (mode, rest)) : text = modeText mode ++ rest := by
  unfold CostFunction.readMode at read
  split at read
  · cases read
    rfl
  · split at read
    · next letter =>
      cases read
      rw [letter_of_ofLetter? letter]
      rfl
    · cases read
      rfl

theorem readCost_spells {text rest : List Char} {f : Option CostFunction}
    (read : CostFunction.read text = .ok (f, rest)) :
    ∃ (ratio : Option Ratio) (mode : Option Rounding),
      text = ratioText ratio ++ (modeText mode ++ rest) ∧ f = costFunction? ratio mode := by
  unfold CostFunction.read at read
  split at read
  · cases read
  · next value afterRatio ratioRead =>
    obtain ⟨ratio, spelled, rfl⟩ := readRatio_spells ratioRead
    rcases modeRead : CostFunction.readMode afterRatio with ⟨mode, afterMode⟩
    rw [modeRead] at read
    refine ⟨ratio, mode, ?_⟩
    rw [spelled, readMode_spells modeRead]
    cases ratio <;> cases mode <;> cases read <;> exact ⟨rfl, rfl⟩

/-- What is read as a directive is the body of a part, with its directive. -/
theorem exists_of_read {text rest : List Char} {d : Directive}
    (read : Directive.read text = .ok (d, rest)) :
    ∃ p : Part, p.isLiteral = false ∧ text = p.body ++ rest ∧ p.directive = d := by
  unfold Directive.read at read
  split at read
  · cases read
  · cases read
    exact ⟨percent, rfl, rfl, rfl⟩
  · cases read
    exact ⟨nodeCount, rfl, rfl, rfl⟩
  · cases read
    exact ⟨edgeCount, rfl, rfl, rfl⟩
  · cases read
    exact ⟨adjacencyMatrix, rfl, rfl, rfl⟩
  · have listed (verb : ListVerb) {f : Option CostFunction} {after : List Char}
        (cost : CostFunction.read text = .ok (f, verb.letter :: after)) :
        ∃ ratio mode, text = (list ratio mode verb).body ++ after ∧ f = costFunction? ratio mode := by
      obtain ⟨ratio, mode, spelled, rfl⟩ := readCost_spells cost
      refine ⟨ratio, mode, ?_, rfl⟩
      rw [spelled, body, List.append_assoc, List.append_assoc, List.singleton_append]
    split at read
    · cases read
    · cases read
    · next cost =>
      cases read
      obtain ⟨ratio, mode, spelled, rfl⟩ := listed .costs cost
      exact ⟨list ratio mode .costs, rfl, spelled, rfl⟩
    · next cost =>
      cases read
      obtain ⟨ratio, mode, spelled, rfl⟩ := listed .nodes cost
      exact ⟨list ratio mode .nodes, rfl, spelled, rfl⟩
    · next cost =>
      cases read
      obtain ⟨ratio, mode, spelled, rfl⟩ := listed .edges cost
      exact ⟨list ratio mode .edges, rfl, spelled, rfl⟩
    · cases read

/-! ## Different parts differ -/

theorem ratioText_injective {ratio other : Option Ratio}
    (same : ratioText ratio = ratioText other) : ratio = other := by
  cases ratio with
  | none =>
    cases other with
    | none => rfl
    | some other => exact (other.nonempty same.symm).elim
  | some ratio =>
    cases other with
    | none => exact (ratio.nonempty same).elim
    | some other =>
      obtain ⟨run, _, _, _⟩ := ratio
      obtain ⟨run', _, _, _⟩ := other
      cases (show run = run' from same)
      rfl

theorem letter_injective {verb other : ListVerb} (same : verb.letter = other.letter) :
    verb = other := by
  cases verb <;> cases other <;> first | rfl | cases same

theorem list_injective {ratio ratio' : Option Ratio} {mode mode' : Option Rounding}
    {verb verb' : ListVerb}
    (same : ratioText ratio ++ (modeText mode ++ [verb.letter]) =
      ratioText ratio' ++ (modeText mode' ++ [verb'.letter])) :
    list ratio mode verb = list ratio' mode' verb' := by
  have chars (ratio : Option Ratio) :
      ∀ c ∈ ratioText ratio, CostFunction.isRatioChar c = true := by
    cases ratio with
    | none => exact fun c held => nomatch held
    | some ratio => exact ratio.chars
  have first := span_append (chars ratio) (tail_stops mode verb [])
  have second := span_append (chars ratio') (tail_stops mode' verb' [])
  rw [same] at first
  have modes := readMode_append mode verb []
  rw [first.2.symm.trans second.2, readMode_append] at modes
  obtain ⟨sameMode, tail⟩ := Prod.mk.inj modes
  cases ratioText_injective (first.1.symm.trans second.1)
  cases sameMode
  cases letter_injective (List.cons.inj tail).1
  rfl

/-- The bodies of different directives differ. -/
theorem body_injective {p q : Part} (first : p.isLiteral = false) (second : q.isLiteral = false)
    (same : p.body = q.body) : p = q := by
  have directives : p.directive = q.directive := by
    have read := read_append first []
    rw [same, read_append second []] at read
    exact (Prod.mk.inj (Except.ok.inj read)).1.symm
  cases p with
  | literal l => cases first
  | list ratio mode verb =>
    cases q with
    | list ratio' mode' verb' => exact list_injective same
    | literal l => cases second
    | _ => cases verb <;> cases directives
  | _ =>
    -- a single letter
    cases q with
    | list _ _ verb => cases verb <;> cases directives
    | literal l => cases second
    | _ => first | rfl | cases directives

end Part

/-! ## Whole templates -/

namespace Template

/-- No literal run follows another one: every run is as long as it can be. -/
def Maximal : List Part → Prop
  | [] => True
  | p :: rest => (p.isLiteral = true → rest.head?.map Part.isLiteral ≠ some true) ∧ Maximal rest

/-- A text split into parts. -/
def Splits (parts : List Part) (text : List Char) : Prop :=
  Maximal parts ∧ parts.flatMap Part.spelling = text

/-- A part begins with a percent sign unless it is a literal run. -/
theorem head_spelling (p : Part) (rest : List Char) :
    ∃ c others, p.spelling ++ rest = c :: others ∧ isLiteral c = p.isLiteral := by
  cases p with
  | literal l =>
    obtain ⟨c, others, run⟩ := List.exists_cons_of_ne_nil l.nonempty
    refine ⟨c, others ++ rest, ?_, l.plain c (run ▸ List.mem_cons_self)⟩
    show l.run ++ rest = _
    rw [run, List.cons_append]
  | _ => exact ⟨'%', _, rfl, rfl⟩

theorem spelling_directive {p : Part} (directive : p.isLiteral = false) :
    p.spelling = '%' :: p.body := by
  rw [Part.spelling, directive]
  rfl

/-- What follows a literal run begins with a percent sign, if there is anything. -/
theorem literal_stops {l : LiteralRun} {rest : List Part} (maximal : Maximal (.literal l :: rest))
    (c : Char) (head : (rest.flatMap Part.spelling).head? = some c) : isLiteral c = false := by
  cases rest with
  | nil => cases head
  | cons p others =>
    obtain ⟨first, tail, spelled, same⟩ := head_spelling p (others.flatMap Part.spelling)
    rw [List.flatMap_cons, spelled] at head
    cases head
    cases directive : p.isLiteral with
    | false => exact same.trans directive
    | true => exact (maximal.1 rfl (congrArg some directive)).elim

theorem directivesOf_directive {body rest : List Char} {d : Directive}
    (read : Directive.read body = .ok (d, rest)) :
    directivesOf ('%' :: body) = (directivesOf rest).map (d :: ·) := by
  rw [directivesOf]
  split
  · next failed => cases read.symm.trans failed
  · next read' =>
    cases read.symm.trans read'
    rfl

theorem directivesOf_literal {c : Char} (literal : isLiteral c = true) (rest : List Char) :
    directivesOf (c :: rest) =
      (directivesOf (rest.dropWhile isLiteral)).map
        (.text (c :: rest.takeWhile isLiteral) :: ·) := by
  rw [directivesOf]
  rintro rfl
  cases literal

/-- Parts are read back. -/
theorem directivesOf_parts {parts : List Part} (maximal : Maximal parts) :
    directivesOf (parts.flatMap Part.spelling) = .ok (parts.map Part.directive) := by
  induction parts with
  | nil =>
    rw [List.flatMap_nil, directivesOf]
    rfl
  | cons p rest ih =>
    have later := ih maximal.2
    rw [List.flatMap_cons, List.map_cons]
    cases directive : p.isLiteral with
    | false =>
      rw [spelling_directive directive, List.cons_append,
        directivesOf_directive (Part.read_append directive _), later]
      rfl
    | true =>
      cases p with
      | literal l =>
        obtain ⟨c, others, run⟩ := List.exists_cons_of_ne_nil l.nonempty
        have plain : ∀ b ∈ c :: others, isLiteral b = true := run ▸ l.plain
        have span := span_append (fun b held => plain b (List.mem_cons_of_mem c held))
          (literal_stops maximal)
        have spelled : (Part.literal l).spelling = c :: others := run
        have copied : (Part.literal l).directive = .text (c :: others) :=
          congrArg Directive.text run
        rw [spelled, copied, List.cons_append, directivesOf_literal (plain c List.mem_cons_self),
          span.1, span.2, later]
        rfl
      | _ => cases directive

/-- What is read as directives splits into parts. -/
theorem exists_splits {text : List Char} {directives : List Directive}
    (read : directivesOf text = .ok directives) :
    ∃ parts, Splits parts text ∧ directives = parts.map Part.directive := by
  fun_induction directivesOf text generalizing directives with
  | case1 =>
    cases read
    exact ⟨[], ⟨trivial, rfl⟩, rfl⟩
  | case2 => cases read
  | case3 body d rest first _ ih =>
    cases later : directivesOf rest with
    | error e =>
      rw [later] at read
      cases read
    | ok others =>
      rw [later] at read
      cases read
      obtain ⟨parts, ⟨maximal, spelled⟩, rfl⟩ := ih later
      obtain ⟨p, directive, rfl, rfl⟩ := Part.exists_of_read first
      refine ⟨p :: parts, ⟨⟨fun literal => ?_, maximal⟩, ?_⟩, rfl⟩
      · rw [directive] at literal
        cases literal
      · rw [List.flatMap_cons, spelled, spelling_directive directive, List.cons_append]
  | case4 c rest unmarked _ ih =>
    cases later : directivesOf (rest.dropWhile isLiteral) with
    | error e =>
      rw [later] at read
      cases read
    | ok others =>
      rw [later] at read
      cases read
      obtain ⟨parts, ⟨maximal, spelled⟩, rfl⟩ := ih later
      have literal : isLiteral c = true := bne_iff_ne.2 unmarked
      have run : ∀ b ∈ c :: rest.takeWhile isLiteral, isLiteral b = true := by
        intro b held
        rcases List.mem_cons.1 held with rfl | held
        · exact literal
        · exact List.all_eq_true.1 List.all_takeWhile b held
      refine ⟨.literal ⟨c :: rest.takeWhile isLiteral, List.cons_ne_nil _ _, run⟩ :: parts,
        ⟨⟨fun _ follows => ?_, maximal⟩, ?_⟩, rfl⟩
      · obtain ⟨p, headPart, isLiteral_p⟩ := Option.map_eq_some_iff.1 follows
        obtain ⟨others, rfl⟩ := List.head?_eq_some_iff.1 headPart
        obtain ⟨first, tail, headChar, same⟩ := head_spelling p (others.flatMap Part.spelling)
        rw [List.flatMap_cons, headChar] at spelled
        have stops := List.head?_dropWhile_not isLiteral rest
        rw [← spelled] at stops
        have plain : isLiteral first = true := same.trans isLiteral_p
        have marked : isLiteral first = false := stops
        exact Bool.false_ne_true (marked.symm.trans plain)
      · rw [List.flatMap_cons, spelled]
        show c :: rest.takeWhile isLiteral ++ rest.dropWhile isLiteral = _
        rw [List.cons_append, List.takeWhile_append_dropWhile]

/-- A text splits in at most one way. -/
theorem splits_unique {parts : List Part} : ∀ {other : List Part} {text : List Char},
    Splits parts text → Splits other text → other = parts := by
  induction parts with
  | nil =>
    rintro other text ⟨-, rfl⟩ ⟨-, spelled⟩
    cases other with
    | nil => rfl
    | cons q others =>
      obtain ⟨c, tail, head, -⟩ := head_spelling q (others.flatMap Part.spelling)
      rw [List.flatMap_cons, head] at spelled
      cases spelled
  | cons p rest ih =>
    rintro other text ⟨maximal, rfl⟩ ⟨otherMaximal, spelled⟩
    cases other with
    | nil =>
      obtain ⟨c, tail, head, -⟩ := head_spelling p (rest.flatMap Part.spelling)
      cases spelled.trans (List.flatMap_cons.trans head)
    | cons q others =>
      rw [List.flatMap_cons, List.flatMap_cons] at spelled
      suffices both : q = p ∧ others.flatMap Part.spelling = rest.flatMap Part.spelling by
        obtain ⟨rfl, tails⟩ := both
        rw [ih ⟨maximal.2, rfl⟩ ⟨otherMaximal.2, tails⟩]
      obtain ⟨c, tail, head, literal⟩ := head_spelling p (rest.flatMap Part.spelling)
      obtain ⟨c', tail', head', literal'⟩ := head_spelling q (others.flatMap Part.spelling)
      have sameChar : c = c' := (List.cons.inj (head.symm.trans (spelled.symm.trans head'))).1
      have sameKind : p.isLiteral = q.isLiteral :=
        literal.symm.trans ((congrArg isLiteral sameChar).trans literal')
      cases kind : p.isLiteral with
      | true =>
        cases p with
        | literal l =>
          cases q with
          | literal k =>
            have first : l.run ++ rest.flatMap Part.spelling = _ := spelled.symm
            have span := span_append l.plain (literal_stops maximal)
            have span' := span_append k.plain (literal_stops otherMaximal)
            rw [first] at span
            have runs : k.run = l.run := span'.1.symm.trans span.1
            obtain ⟨run, _, _⟩ := l
            obtain ⟨run', _, _⟩ := k
            cases (show run' = run from runs)
            exact ⟨rfl, span'.2.symm.trans span.2⟩
          | _ => cases sameKind
        | _ => cases kind
      | false =>
        have kind' : q.isLiteral = false := sameKind.symm.trans kind
        rw [spelling_directive kind, spelling_directive kind'] at spelled
        have bodies : q.body ++ others.flatMap Part.spelling =
            p.body ++ rest.flatMap Part.spelling := (List.cons.inj spelled).2
        have read := Part.read_append kind' (others.flatMap Part.spelling)
        rw [bodies, Part.read_append kind] at read
        have tails := (Prod.mk.inj (Except.ok.inj read)).2
        rw [tails] at bodies
        exact ⟨Part.body_injective kind' kind (List.append_cancel_right bodies), tails.symm⟩

/-- Compiling accepts the texts that split into parts and gives the directives of the parts in order.
No text splits in more than one way. -/
theorem compile_iff (source : String) :
    (∀ directives : List Directive, compile source = .ok ⟨source, directives⟩ ↔
      source ≠ "" ∧ ∃ parts : List Part,
        Splits parts source.toList ∧ directives = parts.map Part.directive) ∧
    ∀ parts other : List Part,
      Splits parts source.toList → Splits other source.toList → other = parts := by
  refine ⟨fun directives => ?_, fun _ _ => splits_unique⟩
  unfold compile
  by_cases empty : source.isEmpty = true
  · rw [if_pos empty]
    constructor
    · intro compiled
      cases compiled
    · rintro ⟨filled, -⟩
      exact (filled (String.isEmpty_iff.1 empty)).elim
  · rw [if_neg empty]
    have filled : source ≠ "" := fun blank => empty (String.isEmpty_iff.2 blank)
    constructor
    · intro compiled
      cases read : directivesOf source.toList with
      | error e =>
        rw [read] at compiled
        cases compiled
      | ok found =>
        rw [read] at compiled
        cases compiled
        exact ⟨filled, exists_splits read⟩
    · rintro ⟨-, parts, ⟨maximal, spelled⟩, rfl⟩
      rw [← spelled, directivesOf_parts maximal]
      rfl

end Template
end GraphScribe
