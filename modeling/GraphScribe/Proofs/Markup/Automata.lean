import GraphScribe.Proofs.Markup.Ends

/-!
# Ends by automata

Whether a construct can end at an offset is told by the bytes before it, read one by one: a tag ends
at a `>` outside quotes, a declaration at a `>` that makes as many closed brackets as opened ones.
The searches that jump from mark to mark find the first such offset.

* `tagCloser_eq_find?`, `bracketCloser_eq_find?`: searching on from any offset.
* `ends_first`: the ends of tags and of declarations.
-/

namespace GraphScribe.Markup

/-- Where a byte of a tag stands. -/
inductive Quoting where
  | outside
  | single
  | double
deriving DecidableEq, Repr

namespace Quoting

/-- What a byte does: a quote opens a value, and the value closes at the next quote of its kind. -/
def next : Quoting → UInt8 → Quoting
  | outside, b => if b == 0x27 then single else if b == 0x22 then double else outside
  | single, b => if b == 0x27 then outside else single
  | double, b => if b == 0x22 then outside else double

/-- The state after some bytes that begin outside quotes. -/
def after (bytes : Bytes) : Quoting :=
  bytes.foldl next outside

/-- The quote that is open. -/
def quote? : Quoting → Option UInt8
  | outside => none
  | single => some 0x27
  | double => some 0x22

@[simp] theorem after_concat (bytes : Bytes) (b : UInt8) :
    after (bytes ++ [b]) = (after bytes).next b := by
  simp [after]

/-- Between quotes only the open one matters. -/
theorem quote?_next_of_some {quoting : Quoting} {q : UInt8} (inside : quoting.quote? = some q)
    (b : UInt8) : (quoting.next b).quote? = if b == q then none else some q := by
  cases quoting with
  | outside => cases inside
  | single =>
    cases inside
    rw [next]
    split <;> rfl
  | double =>
    cases inside
    rw [next]
    split <;> rfl

theorem quote?_next_outside (b : UInt8) :
    (outside.next b).quote? = if isQuote b then some b else none := by
  rw [next, isQuote]
  by_cases single : b = 0x27
  · subst single
    rfl
  · by_cases double : b = 0x22
    · subst double
      rfl
    · simp [single, double, quote?]

theorem quote?_eq_none {quoting : Quoting} : quoting.quote? = none ↔ quoting = outside := by
  cases quoting <;> simp [quote?]

end Quoting

/-- At this offset of a tag stands a `>` outside quotes. The automaton begins behind the byte that
opens the tag. -/
def ClosesTag (tag : Bytes) (i : Nat) : Prop :=
  1 ≤ i ∧ tag[i]? = some closer ∧ Quoting.after ((tag.take i).drop 1) = .outside

instance (tag : Bytes) : DecidablePred (ClosesTag tag) :=
  fun _ => inferInstanceAs (Decidable (_ ∧ _))

/-- At this offset of a declaration stands a `>`, and with it there are as many `>` as `<`. -/
def ClosesDeclaration (declaration : Bytes) (i : Nat) : Prop :=
  declaration[i]? = some closer ∧
    (declaration.take (i + 1)).count opener = (declaration.take (i + 1)).count closer

instance (declaration : Bytes) : DecidablePred (ClosesDeclaration declaration) :=
  fun _ => inferInstanceAs (Decidable (_ ∧ _))

/-! ## One byte -/

/-- A search behind some bytes tests the offset of the next one, and goes on behind it. -/
theorem find?_behind (test : Nat → Bool) (before rest : Bytes) (b : UInt8) :
    (List.range' before.length (b :: rest).length).find? test =
      if test before.length then some before.length
      else (List.range' (before ++ [b]).length rest.length).find? test := by
  rw [List.length_cons, List.range'_succ, List.find?_cons, List.length_append]
  cases test before.length <;> rfl

theorem closesTag_append {before : Bytes} (filled : 1 ≤ before.length) (b : UInt8) (rest : Bytes) :
    ClosesTag (before ++ b :: rest) before.length ↔
      b = closer ∧ Quoting.after (before.drop 1) = .outside := by
  simp [ClosesTag, filled]

theorem closesDeclaration_append (before : Bytes) (b : UInt8) (rest : Bytes) :
    ClosesDeclaration (before ++ b :: rest) before.length ↔
      b = closer ∧ before.count opener = before.count closer + 1 := by
  have front : (before ++ b :: rest).take (before.length + 1) = before ++ [b] := by
    rw [← List.singleton_append, ← List.append_assoc]
    exact List.take_left' (by simp)
  rw [ClosesDeclaration, front, List.getElem?_append_right (Nat.le_refl _), Nat.sub_self,
    List.getElem?_cons_zero, Option.some_inj]
  refine and_congr_right fun closes => ?_
  have apart : (closer == opener) = false := by decide
  simp [closes, List.count_append, List.count_cons, apart]

/-! ## Searches -/

/-- The state of the automaton is all that a search for the end of a tag keeps of the bytes before
it. -/
theorem tagCloser_eq_find? (rest : Bytes) : ∀ {before : Bytes}, 1 ≤ before.length →
    Scan.tagCloser (Quoting.after (before.drop 1)).quote? before.length rest =
      (List.range' before.length rest.length).find? (ClosesTag (before ++ rest)) := by
  induction rest with
  | nil => exact fun _ => rfl
  | cons b rest ih =>
    intro before filled
    have later := @ih (before ++ [b]) (by simp)
    have behind : Quoting.after ((before ++ [b]).drop 1) =
        (Quoting.after (before.drop 1)).next b := by
      rw [List.drop_append_of_le_length filled, Quoting.after_concat]
    rw [behind, List.append_assoc, List.singleton_append] at later
    rw [find?_behind, ← later, List.length_append, List.length_singleton]
    cases state : (Quoting.after (before.drop 1)).quote? with
    | some q =>
      have inside : ¬ ClosesTag (before ++ b :: rest) before.length := by
        rw [closesTag_append filled, ← Quoting.quote?_eq_none, state]
        simp
      rw [Quoting.quote?_next_of_some state, if_neg (by simpa using inside)]
      rfl
    | none =>
      have outside := Quoting.quote?_eq_none.1 state
      rw [outside, Quoting.quote?_next_outside]
      have closes : ClosesTag (before ++ b :: rest) before.length ↔ b = closer := by
        rw [closesTag_append filled, and_iff_left outside]
      rw [Scan.tagCloser]
      by_cases ends : b = closer
      · rw [if_pos (beq_iff_eq.2 ends), if_pos (decide_eq_true (closes.2 ends))]
      · have passed : ¬ decide (ClosesTag (before ++ b :: rest) before.length) = true := by
          simpa [closes] using ends
        rw [if_neg (mt eq_of_beq ends), if_neg passed]

/-- Behind these bytes of a declaration its own bracket is open, and `depth` more. -/
def LeavesOpen (before : Bytes) (depth : Nat) : Prop :=
  before.count opener = before.count closer + depth + 1

namespace LeavesOpen

variable {before : Bytes} {depth : Nat} {b : UInt8}

theorem openBracket (opened : LeavesOpen before depth) :
    LeavesOpen (before ++ [opener]) (depth + 1) := by
  have other : (opener == closer) = false := by decide
  simp only [LeavesOpen, List.count_append, List.count_cons, List.count_nil, other] at opened ⊢
  simp
  omega

theorem closeBracket (opened : LeavesOpen before (depth + 1)) :
    LeavesOpen (before ++ [closer]) depth := by
  have other : (closer == opener) = false := by decide
  simp only [LeavesOpen, List.count_append, List.count_cons, List.count_nil, other] at opened ⊢
  simp
  omega

theorem skip (opened : LeavesOpen before depth) (plain : isBracket b = false) :
    LeavesOpen (before ++ [b]) depth := by
  obtain ⟨notOpener, notCloser⟩ := Bool.or_eq_false_iff.1 plain
  simp only [LeavesOpen, List.count_append, List.count_cons, List.count_nil, notOpener,
    notCloser] at opened ⊢
  simpa using opened

/-- The next byte ends the declaration if it closes the last bracket. -/
theorem closes_iff (opened : LeavesOpen before depth) (b : UInt8) (rest : Bytes) :
    ClosesDeclaration (before ++ b :: rest) before.length ↔ b = closer ∧ depth = 0 := by
  rw [closesDeclaration_append, opened]
  refine and_congr_right fun _ => ?_
  omega

end LeavesOpen

/-- The number of open brackets is all that a search for the end of a declaration keeps of the bytes
before it. -/
theorem bracketCloser_eq_find? (rest : Bytes) : ∀ {before : Bytes} {depth : Nat},
    LeavesOpen before depth →
      Scan.bracketCloser depth before.length rest =
        (List.range' before.length rest.length).find? (ClosesDeclaration (before ++ rest)) := by
  induction rest with
  | nil => exact fun _ => rfl
  | cons b rest ih =>
    intro before depth opened
    have closes := opened.closes_iff b rest
    have later {depth : Nat} (opened : LeavesOpen (before ++ [b]) depth) :
        Scan.bracketCloser depth (before.length + 1) rest =
          (List.range' (before ++ [b]).length rest.length).find?
            (ClosesDeclaration (before ++ b :: rest)) := by
      simpa using ih opened
    rw [find?_behind]
    by_cases bracket : isBracket b = true
    · rcases isBracket_cases bracket with rfl | rfl
      · have passed : ¬ ClosesDeclaration (before ++ opener :: rest) before.length := by
          rw [closes]
          exact fun ends => absurd ends.1 (by decide)
        rw [bracketCloser_open, later opened.openBracket, if_neg (by simpa using passed)]
      · have other : (closer == opener) = false := by decide
        cases depth with
        | zero => simp [closes, Scan.bracketCloser, other]
        | succ inner =>
          rw [← later opened.closeBracket]
          simp [closes, Scan.bracketCloser, other]
    · have plain : isBracket b = false := Bool.not_eq_true _ ▸ bracket
      have passed : ¬ ClosesDeclaration (before ++ b :: rest) before.length := by
        rw [closes]
        exact fun ends => bracket (by rw [ends.1]; decide)
      rw [bracketCloser_skip plain, later (opened.skip plain), if_neg (by simpa using passed)]

/-- A tag ends at the first `>` outside quotes, and a declaration at the first `>` that makes as many
closed brackets as opened ones; where there is none, they do not end. -/
theorem ends_first (tag rest : Bytes) :
    tagEnd tag = (List.range tag.length).find? (ClosesTag tag) ∧
      declarationEnd (opener :: bang :: rest) =
        (List.range (opener :: bang :: rest).length).find?
          (ClosesDeclaration (opener :: bang :: rest)) := by
  constructor
  · cases tag with
    | nil => rw [tagEnd, tagEndFrom_eq]; rfl
    | cons first others =>
      have later := @tagCloser_eq_find? others [first] (Nat.le_refl 1)
      have early : ¬ ClosesTag (first :: others) 0 := fun closes => absurd closes.1 (by decide)
      rw [tagEnd, tagEndFrom_eq, List.range_eq_range', List.length_cons, List.range'_succ,
        List.find?_cons_of_neg (by simpa using early)]
      exact later
  · have later := @bracketCloser_eq_find? rest [opener, bang] 0 rfl
    have early (i : Nat) (b : UInt8) (held : (opener :: bang :: rest)[i]? = some b)
        (plain : b ≠ closer) : ¬ ClosesDeclaration (opener :: bang :: rest) i := fun closes =>
      plain (Option.some.inj (held.symm.trans closes.1))
    have first := early 0 opener rfl (by decide)
    have second := early 1 bang rfl (by decide)
    rw [declarationEnd_eq, List.range_eq_range', List.length_cons, List.length_cons,
      List.range'_succ, List.range'_succ, List.find?_cons_of_neg (by simpa using first),
      List.find?_cons_of_neg (by simpa using second)]
    exact later

/-- Quotes of the other kind close nothing, and a quoted `>` does not end the tag. -/
example :
    tagEnd (Bytes.ofAscii "<a b='\">' c=\"'>\">x>") = some 16 ∧
      declarationEnd (Bytes.ofAscii "<!DOCTYPE g [<!ELEMENT g ANY>]><g>") = some 30 := by
  decide +kernel

end GraphScribe.Markup
