import GraphScribe.Markup.Event
import GraphScribe.Markup.Token

/-!
# Ends of constructs

Tokens and events find the ends of constructs in different ways: one jumps from mark to mark, the
other goes byte by byte and remembers the open quote or the number of open brackets. The ends are
the same.
-/

namespace GraphScribe.Markup

theorem test_of_findIdx? {p : UInt8 → Bool} {bytes after : Bytes} {i : Nat} {b : UInt8}
    (found : bytes.findIdx? p = some i) (left : bytes.drop i = b :: after) : p b = true := by
  obtain ⟨bound, holds, -⟩ := List.findIdx?_eq_some_iff_getElem.1 found
  rw [List.drop_eq_getElem_cons bound] at left
  rwa [(List.cons.inj left).1] at holds

/-! ## Tags -/

theorem tagCloser_some (quote : UInt8) (bytes : Bytes) : ∀ offset : Nat,
    Scan.tagCloser (some quote) offset bytes =
      match bytes.findIdx? (· == quote) with
      | none => none
      | some i => Scan.tagCloser none (offset + i + 1) (bytes.drop (i + 1)) := by
  induction bytes with
  | nil => exact fun _ => rfl
  | cons b rest ih =>
    intro offset
    rw [Scan.tagCloser, List.findIdx?_cons]
    cases same : b == quote with
    | true => rfl
    | false =>
      have later := ih (offset + 1)
      rw [if_neg Bool.false_ne_true, if_neg Bool.false_ne_true]
      refine later.trans ?_
      cases rest.findIdx? (· == quote) with
      | none => rfl
      | some i =>
        show Scan.tagCloser none (offset + 1 + i + 1) _ =
          Scan.tagCloser none (offset + (i + 1) + 1) _
        rw [Nat.add_right_comm offset 1 i]
        rfl

theorem tagCloser_none (bytes : Bytes) : ∀ offset : Nat,
    Scan.tagCloser none offset bytes =
      match bytes.findIdx? isTagMark with
      | none => none
      | some i =>
        match bytes.drop i with
        | [] => none
        | mark :: after =>
          if mark == closer then some (offset + i)
          else Scan.tagCloser (some mark) (offset + i + 1) after := by
  induction bytes with
  | nil => exact fun _ => rfl
  | cons b rest ih =>
    intro offset
    rw [Scan.tagCloser, List.findIdx?_cons]
    cases closes : b == closer with
    | true =>
      have marked : isTagMark b = true := by rw [isTagMark, closes]; rfl
      rw [if_pos rfl, if_pos marked]
      exact (if_pos closes).symm
    | false =>
      have marked : isTagMark b = isQuote b := by rw [isTagMark, closes]; rfl
      rw [if_neg Bool.false_ne_true, marked]
      cases isQuote b with
      | true =>
        rw [if_pos rfl, if_pos rfl]
        exact (if_neg (fun yes => Bool.false_ne_true (closes.symm.trans yes))).symm
      | false =>
        rw [if_neg Bool.false_ne_true, if_neg Bool.false_ne_true]
        refine (ih (offset + 1)).trans ?_
        cases rest.findIdx? isTagMark with
        | none => rfl
        | some i =>
          show _ = match rest.drop i with
            | [] => none
            | mark :: after =>
              if mark == closer then some (offset + (i + 1))
              else Scan.tagCloser (some mark) (offset + (i + 1) + 1) after
          rw [Nat.add_comm i 1, ← Nat.add_assoc]

/-- A tag ends at the same place in both readings. -/
theorem tagEndFrom_eq (bytes : Bytes) (offset : Nat) :
    tagEndFrom bytes offset = Scan.tagCloser none offset bytes := by
  fun_induction tagEndFrom bytes offset with
  | case1 bytes offset unmarked => rw [tagCloser_none, unmarked]
  | case2 bytes offset i marked nothing =>
    rw [tagCloser_none, marked]
    dsimp only
    rw [nothing]
  | case3 bytes offset i marked mark after left closes =>
    rw [tagCloser_none, marked]
    dsimp only
    rw [left]
    exact (if_pos closes).symm
  | case4 bytes offset i marked mark after left opens unclosed =>
    rw [tagCloser_none, marked]
    dsimp only
    rw [left]
    dsimp only
    rw [if_neg opens, tagCloser_some, unclosed]
  | case5 bytes offset i marked mark after left opens j closed _ ih =>
    rw [tagCloser_none, marked]
    dsimp only
    rw [left]
    dsimp only
    rw [if_neg opens, tagCloser_some, closed]
    exact ih

/-- The quote that is open after some bytes of a tag, if one is. -/
def openQuote (quote : Option UInt8) : Bytes → Option UInt8
  | [] => quote
  | b :: rest =>
    match quote with
    | some q => openQuote (if b == q then none else some q) rest
    | none => openQuote (if isQuote b then some b else none) rest

theorem tagCloser_le (bytes : Bytes) : ∀ {quote : Option UInt8} {offset i : Nat},
    Scan.tagCloser quote offset bytes = some i → offset ≤ i := by
  induction bytes with
  | nil =>
    intro quote offset i closed
    cases closed
  | cons b rest ih =>
    intro quote offset i closed
    cases quote with
    | some q => exact Nat.le_of_succ_le (ih closed)
    | none =>
      unfold Scan.tagCloser at closed
      dsimp only at closed
      split at closed
      · cases closed
        exact Nat.le_refl _
      · exact Nat.le_of_succ_le (ih closed)

/-- A tag without a `>` does not end. -/
theorem tagCloser_unclosed {bytes : Bytes} (unclosed : closer ∉ bytes) :
    ∀ (quote : Option UInt8) (offset : Nat), Scan.tagCloser quote offset bytes = none := by
  induction bytes with
  | nil => exact fun _ _ => rfl
  | cons b rest ih =>
    intro quote offset
    have later := ih fun held => unclosed (List.mem_cons_of_mem b held)
    cases quote with
    | some q => exact later _ _
    | none =>
      have plain : ¬ (b == closer) = true := fun same =>
        unclosed (eq_of_beq same ▸ List.mem_cons_self)
      unfold Scan.tagCloser
      dsimp only
      rw [if_neg plain]
      exact later _ _

/-- A tag ends at its first `>` if no quote is open there, and later otherwise. -/
theorem tagCloser_append {before : Bytes} (plain : closer ∉ before) (rest : Bytes) :
    ∀ (quote : Option UInt8) (offset : Nat),
      Scan.tagCloser quote offset (before ++ closer :: rest) =
        Scan.tagCloser (openQuote quote before) (offset + before.length) (closer :: rest) := by
  induction before with
  | nil => exact fun _ _ => rfl
  | cons b others ih =>
    intro quote offset
    have later := ih fun held => plain (List.mem_cons_of_mem b held)
    rw [List.length_cons, Nat.add_comm others.length 1, ← Nat.add_assoc]
    cases quote with
    | some q => exact later _ _
    | none =>
      have apart : ¬ (b == closer) = true := fun same =>
        plain (eq_of_beq same ▸ List.mem_cons_self)
      rw [List.cons_append]
      refine Eq.trans ?_ (later _ _)
      show (if b == closer then _ else _) = _
      rw [if_neg apart]

/-! ## Declarations -/

theorem bracketCloser_skip {b : UInt8} (plain : isBracket b = false) (rest : Bytes)
    (depth offset : Nat) :
    Scan.bracketCloser depth offset (b :: rest) =
      Scan.bracketCloser depth (offset + 1) rest := by
  obtain ⟨notOpener, notCloser⟩ := Bool.or_eq_false_iff.1 plain
  cases depth <;> simp only [Scan.bracketCloser, notOpener, notCloser, Bool.false_eq_true, if_false]

theorem bracketCloser_open (rest : Bytes) (depth offset : Nat) :
    Scan.bracketCloser depth offset (opener :: rest) =
      Scan.bracketCloser (depth + 1) (offset + 1) rest := by
  cases depth <;> rfl

theorem isBracket_cases {b : UInt8} (bracket : isBracket b = true) : b = opener ∨ b = closer := by
  rcases Bool.or_eq_true_iff.1 bracket with same | same
  · exact .inl (eq_of_beq same)
  · exact .inr (eq_of_beq same)

/-- Up to the first bracket nothing is decided. -/
theorem bracketCloser_eq (bytes : Bytes) : ∀ depth offset : Nat,
    Scan.bracketCloser depth offset bytes =
      match bytes.findIdx? isBracket with
      | none => none
      | some i => Scan.bracketCloser depth (offset + i) (bytes.drop i) := by
  induction bytes with
  | nil => exact fun _ _ => rfl
  | cons b rest ih =>
    intro depth offset
    rw [List.findIdx?_cons]
    cases bracket : isBracket b with
    | true => rfl
    | false =>
      rw [bracketCloser_skip bracket, ih, if_neg Bool.false_ne_true]
      cases rest.findIdx? isBracket with
      | none => rfl
      | some i =>
        show _ = Scan.bracketCloser depth (offset + (i + 1)) (rest.drop i)
        rw [Nat.add_comm i 1, ← Nat.add_assoc]

/-- A declaration ends at the same place in both readings. -/
theorem bracketEndFrom_eq (outer : Nat) (bytes : Bytes) (offset : Nat) :
    ∀ depth, outer = depth + 1 →
      bracketEndFrom outer bytes offset = Scan.bracketCloser depth offset bytes := by
  fun_induction bracketEndFrom outer bytes offset with
  | case1 outer bytes offset plain =>
    intro depth _
    rw [bracketCloser_eq, plain]
  | case2 outer bytes offset i found nothing =>
    intro depth _
    rw [bracketCloser_eq, found]
    dsimp only
    rw [nothing]
    rfl
  | case3 outer bytes offset i found bracket after left _ opens ih =>
    intro depth same
    rw [bracketCloser_eq, found]
    dsimp only
    rw [left, eq_of_beq opens, bracketCloser_open]
    exact ih (depth + 1) (congrArg Nat.succ same)
  | case4 outer bytes offset i found bracket after left _ closes shallow =>
    intro depth same
    have zero : depth = 0 := by omega
    have closer' : bracket = closer :=
      (isBracket_cases (test_of_findIdx? found left)).resolve_left fun opens =>
        closes (beq_iff_eq.2 opens)
    rw [bracketCloser_eq, found]
    dsimp only
    rw [left, zero, closer']
    rfl
  | case5 outer bytes offset i found bracket after left _ closes deep ih =>
    intro depth same
    obtain ⟨inner, rfl⟩ : ∃ inner, depth = inner + 1 := ⟨depth - 1, by omega⟩
    have closer' : bracket = closer :=
      (isBracket_cases (test_of_findIdx? found left)).resolve_left fun opens =>
        closes (beq_iff_eq.2 opens)
    rw [bracketCloser_eq, found]
    dsimp only
    rw [left, closer']
    exact ih inner (by omega)

theorem declarationEnd_eq (bytes : Bytes) :
    declarationEnd bytes = Scan.bracketCloser 0 2 (bytes.drop 2) :=
  bracketEndFrom_eq 1 (bytes.drop 2) 2 0 rfl

theorem bracketCloser_le (bytes : Bytes) : ∀ {depth offset i : Nat},
    Scan.bracketCloser depth offset bytes = some i → offset ≤ i := by
  induction bytes with
  | nil =>
    intro depth offset i closed
    cases closed
  | cons b rest ih =>
    intro depth offset i closed
    by_cases bracket : isBracket b = true
    · rcases isBracket_cases bracket with rfl | rfl
      · rw [bracketCloser_open] at closed
        exact Nat.le_of_succ_le (ih closed)
      · cases depth with
        | zero =>
          cases closed
          exact Nat.le_refl _
        | succ inner => exact Nat.le_of_succ_le (ih closed)
    · rw [bracketCloser_skip (Bool.not_eq_true _ ▸ bracket)] at closed
      exact Nat.le_of_succ_le (ih closed)

/-- A declaration does not end among bytes without brackets. -/
theorem bracketCloser_append {before : Bytes} (plain : ∀ b ∈ before, isBracket b = false)
    (rest : Bytes) (depth : Nat) : ∀ offset : Nat,
      Scan.bracketCloser depth offset (before ++ rest) =
        Scan.bracketCloser depth (offset + before.length) rest := by
  induction before with
  | nil => exact fun _ => rfl
  | cons b others ih =>
    intro offset
    have later := ih (fun b held => plain b (List.mem_cons_of_mem _ held)) (offset + 1)
    rw [List.cons_append, bracketCloser_skip (plain b List.mem_cons_self), later,
      List.length_cons, Nat.add_comm others.length 1, ← Nat.add_assoc]

/-- A document type declaration does not end among its letters. -/
theorem nine_le_of_closed {rest : Bytes} {i : Nat}
    (named : Bytes.sameLetters (rest.take 7) (Bytes.ofAscii "DOCTYPE") = true)
    (closed : Scan.bracketCloser 0 2 rest = some i) : 9 ≤ i := by
  have letters : (rest.take 7).map Bytes.lower = (Bytes.ofAscii "DOCTYPE").map Bytes.lower :=
    eq_of_beq named
  have seven : (rest.take 7).length = 7 := by
    have lengths := congrArg List.length letters
    rwa [List.length_map, List.length_map] at lengths
  have plain : ∀ b ∈ rest.take 7, isBracket b = false := by
    intro b held
    have lower : Bytes.lower b ∈ (Bytes.ofAscii "DOCTYPE").map Bytes.lower :=
      letters ▸ List.mem_map_of_mem held
    cases bracket : isBracket b with
    | false => rfl
    | true =>
      rcases isBracket_cases bracket with rfl | rfl
      · exact absurd lower (by decide)
      · exact absurd lower (by decide)
  rw [← List.take_append_drop 7 rest, bracketCloser_append plain, seven] at closed
  exact bracketCloser_le _ closed

/-! ## Terminators -/

theorem seek_shift (test : Bytes → Bool) (bytes : Bytes) : ∀ offset : Nat,
    Bytes.seek test bytes (offset + 1) = (Bytes.seek test bytes offset).map (· + 1) := by
  induction bytes with
  | nil => exact fun _ => rfl
  | cons b rest ih =>
    intro offset
    unfold Bytes.seek
    split
    · rfl
    · exact ih (offset + 1)

/-- A place where the terminator does not stand may be skipped. -/
theorem closedBy_skip {terminator : String} {start : Nat} {bytes rest : Bytes} {b : UInt8}
    (left : bytes.drop start = b :: rest)
    (apart : (Bytes.ofAscii terminator).isPrefixOf (b :: rest) = false) :
    closedBy terminator start bytes = closedBy terminator (start + 1) bytes := by
  have next : bytes.drop (start + 1) = rest := by
    rw [← List.drop_drop, left]
    rfl
  unfold closedBy Bytes.offsetOf?
  dsimp only
  rw [left, next, Bytes.seek, apart, if_neg Bool.false_ne_true, seek_shift, Option.map_map]
  refine congrArg (Option.map · _) (funext fun i => ?_)
  show start + (i + 1) + _ = start + 1 + i + _
  rw [Nat.add_comm i 1, ← Nat.add_assoc]

theorem closedBy_le {terminator : String} {start length : Nat} {bytes : Bytes}
    (closed : closedBy terminator start bytes = some length) :
    start + (Bytes.ofAscii terminator).length ≤ length := by
  unfold closedBy at closed
  obtain ⟨i, -, rfl⟩ := Option.map_eq_some_iff.1 closed
  omega

end GraphScribe.Markup
