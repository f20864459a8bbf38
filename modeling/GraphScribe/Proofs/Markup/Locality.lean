import GraphScribe.Proofs.Markup.Ends

/-!
# How far a construct reaches

What a construct is and where it ends is decided by its own bytes, whatever follows them. Only a text
ends because of what follows: the next construct or the end of the document. A construct that is cut
short is none.

* `readConstruct_local`: a construct is read back from its own bytes.
* `readConstruct_append`, `readConstruct_take`: so it is before more bytes and before fewer.
* `readConstruct_cut`: where the end of a document cuts a construct, the fault is that it is not
  closed, or not known if the cut lies in the opener of a declaration.
-/

namespace GraphScribe.Markup

/-- A reader finds `result` on some bytes by their first `n`, whatever follows these. -/
abbrev SeenIn {α : Type} (read : Bytes → α) (bytes : Bytes) (n : Nat) (result : α) : Prop :=
  ∃ front tail, bytes = front ++ tail ∧ front.length = n ∧ ∀ more, read (front ++ more) = result

/-! ## Searches

Each search that finds something splits the bytes into those that it has seen and the rest, and
finds the same whatever the rest is. -/

theorem findIdx?_local {p : UInt8 → Bool} (bytes : Bytes) : ∀ {i : Nat},
    bytes.findIdx? p = some i → SeenIn (List.findIdx? p) bytes (i + 1) (some i) := by
  induction bytes with
  | nil =>
    intro i found
    cases found
  | cons b rest ih =>
    intro i found
    rw [List.findIdx?_cons] at found
    by_cases here : p b = true
    · rw [if_pos here] at found
      cases found
      exact ⟨[b], rest, rfl, rfl, fun more => by simp [List.findIdx?_cons, here]⟩
    · rw [if_neg here] at found
      obtain ⟨j, later, rfl⟩ := Option.map_eq_some_iff.1 found
      obtain ⟨front, tail, rfl, length, same⟩ := ih later
      refine ⟨b :: front, tail, rfl, by rw [List.length_cons, length], fun more => ?_⟩
      rw [List.cons_append, List.findIdx?_cons, if_neg here, same]
      rfl

theorem tagCloser_local (bytes : Bytes) : ∀ {quote : Option UInt8} {offset i : Nat},
    Scan.tagCloser quote offset bytes = some i →
      ∃ front tail, bytes = front ++ tail ∧ offset + front.length = i + 1 ∧
        ∀ more, Scan.tagCloser quote offset (front ++ more) = some i := by
  induction bytes with
  | nil =>
    intro quote offset i closed
    cases closed
  | cons b rest ih =>
    intro quote offset i closed
    cases quote with
    | some q =>
      obtain ⟨front, tail, rfl, length, same⟩ := ih closed
      exact ⟨b :: front, tail, rfl, by rw [List.length_cons]; omega, same⟩
    | none =>
      unfold Scan.tagCloser at closed
      dsimp only at closed
      by_cases closes : (b == closer) = true
      · rw [if_pos closes] at closed
        cases closed
        exact ⟨[b], rest, rfl, rfl, fun more => if_pos closes⟩
      · rw [if_neg closes] at closed
        obtain ⟨front, tail, rfl, length, same⟩ := ih closed
        exact ⟨b :: front, tail, rfl, by rw [List.length_cons]; omega,
          fun more => (if_neg closes).trans (same more)⟩

theorem bracketCloser_local (bytes : Bytes) : ∀ {depth offset i : Nat},
    Scan.bracketCloser depth offset bytes = some i →
      ∃ front tail, bytes = front ++ tail ∧ offset + front.length = i + 1 ∧
        ∀ more, Scan.bracketCloser depth offset (front ++ more) = some i := by
  induction bytes with
  | nil =>
    intro depth offset i closed
    cases closed
  | cons b rest ih =>
    intro depth offset i closed
    by_cases bracket : isBracket b = true
    · rcases isBracket_cases bracket with rfl | rfl
      · rw [bracketCloser_open] at closed
        obtain ⟨front, tail, rfl, length, same⟩ := ih closed
        exact ⟨opener :: front, tail, rfl, by rw [List.length_cons]; omega,
          fun more => (bracketCloser_open _ depth offset).trans (same more)⟩
      · cases depth with
        | zero =>
          cases closed
          exact ⟨[closer], rest, rfl, rfl, fun more => rfl⟩
        | succ inner =>
          obtain ⟨front, tail, rfl, length, same⟩ := ih closed
          exact ⟨closer :: front, tail, rfl, by rw [List.length_cons]; omega, same⟩
    · have plain : isBracket b = false := Bool.not_eq_true _ ▸ bracket
      rw [bracketCloser_skip plain] at closed
      obtain ⟨front, tail, rfl, length, same⟩ := ih closed
      exact ⟨b :: front, tail, rfl, by rw [List.length_cons]; omega,
        fun more => (bracketCloser_skip plain _ depth offset).trans (same more)⟩

/-- Whether a byte string begins with a shorter one does not depend on what follows. -/
theorem isPrefixOf_append {pattern front : Bytes} (fits : pattern.length ≤ front.length)
    (tail more : Bytes) : pattern.isPrefixOf (front ++ tail) = pattern.isPrefixOf (front ++ more) := by
  have within (others : Bytes) : pattern <+: front ++ others ↔ pattern <+: front :=
    ⟨fun begins => List.prefix_of_prefix_length_le begins (List.prefix_append front others) fits,
      fun begins => begins.trans (List.prefix_append front others)⟩
  rw [Bool.eq_iff_iff, List.isPrefixOf_iff_prefix, List.isPrefixOf_iff_prefix, within, within]

theorem seek_local {pattern : Bytes} (filled : pattern ≠ []) (bytes : Bytes) :
    ∀ {offset i : Nat}, Bytes.seek (pattern.isPrefixOf ·) bytes offset = some i →
      ∃ front tail, bytes = front ++ tail ∧ offset + front.length = i + pattern.length ∧
        pattern.length ≤ front.length ∧
        ∀ more, Bytes.seek (pattern.isPrefixOf ·) (front ++ more) offset = some i := by
  induction bytes with
  | nil =>
    intro offset i found
    cases found
  | cons b rest ih =>
    intro offset i found
    rw [Bytes.seek] at found
    by_cases here : pattern.isPrefixOf (b :: rest) = true
    · rw [if_pos here] at found
      cases found
      obtain ⟨tail, whole⟩ := List.isPrefixOf_iff_prefix.1 here
      refine ⟨pattern, tail, whole.symm, rfl, Nat.le_refl _, fun more => ?_⟩
      obtain ⟨first, others, rfl⟩ := List.exists_cons_of_ne_nil filled
      rw [List.cons_append, Bytes.seek]
      exact if_pos (List.isPrefixOf_iff_prefix.2 (List.prefix_append (first :: others) more))
    · rw [if_neg here] at found
      obtain ⟨front, tail, rfl, length, fits, same⟩ := ih found
      have longer : pattern.length ≤ (b :: front).length := Nat.le_succ_of_le fits
      refine ⟨b :: front, tail, rfl, by rw [List.length_cons]; omega, longer, fun more => ?_⟩
      have apart : ¬ pattern.isPrefixOf (b :: front ++ more) = true :=
        isPrefixOf_append longer tail more ▸ here
      rw [List.cons_append, Bytes.seek]
      exact (if_neg apart).trans (same more)

/-- Bytes seen after the first `k` make one front with these. -/
theorem exists_front_of_drop {bytes front tail : Bytes} {k : Nat} (filled : 0 < front.length)
    (left : bytes.drop k = front ++ tail) :
    ∃ before, before.length = k ∧ bytes = before ++ front ++ tail ∧
      ∀ more, (before ++ front ++ more).drop k = front ++ more := by
  have lengths := congrArg List.length left
  rw [List.length_drop, List.length_append] at lengths
  have skipped : (bytes.take k).length = k := List.length_take_of_le (by omega)
  refine ⟨bytes.take k, skipped, ?_, fun more => ?_⟩
  · rw [List.append_assoc, ← left, List.take_append_drop]
  · rw [List.append_assoc, List.drop_left' skipped]

theorem closedBy_local {terminator : String} (filled : Bytes.ofAscii terminator ≠ [])
    {start n : Nat} {bytes : Bytes} (closed : closedBy terminator start bytes = some n) :
    SeenIn (closedBy terminator start) bytes n (some n) := by
  unfold closedBy Bytes.offsetOf? at closed
  obtain ⟨i, found, rfl⟩ := Option.map_eq_some_iff.1 closed
  obtain ⟨front, tail, whole, length, fits, same⟩ := seek_local filled _ found
  have seen : 0 < front.length := Nat.lt_of_lt_of_le (List.length_pos_iff.2 filled) fits
  obtain ⟨before, skipped, rfl, left⟩ := exists_front_of_drop seen whole
  refine ⟨before ++ front, tail, rfl, by rw [List.length_append]; omega, fun more => ?_⟩
  unfold closedBy Bytes.offsetOf?
  dsimp only
  rw [left, same]
  rfl

theorem tagEnd_local {bytes : Bytes} {i : Nat} (closed : tagEnd bytes = some i) :
    1 ≤ i ∧ SeenIn tagEnd bytes (i + 1) (some i) := by
  rw [tagEnd, tagEndFrom_eq] at closed
  obtain ⟨front, tail, whole, length, same⟩ := tagCloser_local _ closed
  have within := tagCloser_le _ closed
  obtain ⟨before, skipped, rfl, left⟩ := exists_front_of_drop (by omega) whole
  refine ⟨within, before ++ front, tail, rfl, by rw [List.length_append]; omega, fun more => ?_⟩
  rw [tagEnd, tagEndFrom_eq, left, same]

theorem declarationEnd_local {bytes : Bytes} {i : Nat} (closed : declarationEnd bytes = some i) :
    SeenIn declarationEnd bytes (i + 1) (some i) := by
  rw [declarationEnd_eq] at closed
  obtain ⟨front, tail, whole, length, same⟩ := bracketCloser_local _ closed
  have within := bracketCloser_le _ closed
  obtain ⟨before, skipped, rfl, left⟩ := exists_front_of_drop (by omega) whole
  refine ⟨before ++ front, tail, rfl, by rw [List.length_append]; omega, fun more => ?_⟩
  rw [declarationEnd_eq, left, same]

/-! ## Constructs -/

section

variable {bytes : Bytes} {c : Construct} {n : Nat}

theorem readEndTag_local (read : readEndTag bytes = .ok (c, n)) :
    SeenIn readEndTag bytes n (.ok (c, n)) := by
  unfold readEndTag at read
  split at read
  · next i found =>
    cases read
    obtain ⟨front, tail, rfl, length, same⟩ := findIdx?_local _ found
    have within : i ≤ front.length := by omega
    refine ⟨front, tail, rfl, length, fun more => ?_⟩
    rw [readEndTag, Bytes.indexOf?, same]
    dsimp only
    rw [List.take_append_of_le_length within, List.take_append_of_le_length within]
  · cases read

theorem readSilent_local {terminator : String} (filled : Bytes.ofAscii terminator ≠ [])
    {start : Nat} (read : readSilent terminator start bytes = .ok (c, n)) :
    start + (Bytes.ofAscii terminator).length ≤ n ∧
      SeenIn (readSilent terminator start) bytes n (.ok (c, n)) := by
  unfold readSilent at read
  split at read
  · next length closed =>
    cases read
    obtain ⟨front, tail, rfl, length, same⟩ := closedBy_local filled closed
    exact ⟨closedBy_le closed, front, tail, rfl, length, fun more => by rw [readSilent, same]⟩
  · cases read

theorem readVerbatim_local (read : readVerbatim bytes = .ok (c, n)) :
    9 ≤ n ∧ SeenIn readVerbatim bytes n (.ok (c, n)) := by
  unfold readVerbatim at read
  split at read
  · next length closed =>
    cases read
    obtain ⟨front, tail, rfl, length, same⟩ := closedBy_local (by decide) closed
    have within : n - 3 ≤ front.length := by omega
    have long := Nat.le_of_add_right_le (closedBy_le closed)
    refine ⟨long, front, tail, rfl, length, fun more => ?_⟩
    rw [readVerbatim, same]
    dsimp only
    rw [List.take_append_of_le_length within, List.take_append_of_le_length within]
  · cases read

theorem readDeclaration_local (read : readDeclaration bytes = .ok (c, n)) :
    SeenIn readDeclaration bytes n (.ok (c, n)) := by
  unfold readDeclaration at read
  split at read
  · next i closed =>
    cases read
    obtain ⟨front, tail, rfl, length, same⟩ := declarationEnd_local closed
    exact ⟨front, tail, rfl, length, fun more => by rw [readDeclaration, same]⟩
  · cases read

/-- A document type declaration is longer than its opener. -/
theorem nine_le_of_readDeclaration {rest : Bytes}
    (named : Bytes.sameLetters (rest.take 7) (Bytes.ofAscii "DOCTYPE") = true)
    (read : readDeclaration (opener :: bang :: rest) = .ok (c, n)) : 9 ≤ n := by
  unfold readDeclaration at read
  split at read
  · next i closed =>
    cases read
    rw [declarationEnd_eq] at closed
    exact Nat.le_succ_of_le (nine_le_of_closed named closed)
  · cases read

theorem readStartTag_local (read : readStartTag bytes = .ok (c, n)) :
    2 ≤ n ∧ SeenIn readStartTag bytes n (.ok (c, n)) := by
  unfold readStartTag at read
  split at read
  · next i closed =>
    cases read
    obtain ⟨named, front, tail, rfl, length, same⟩ := tagEnd_local closed
    have within : i ≤ front.length := by omega
    refine ⟨by omega, front, tail, rfl, length, fun more => ?_⟩
    rw [readStartTag, same]
    dsimp only
    rw [List.take_append_of_le_length within, List.take_append_of_le_length within]
  · cases read

/-- What begins with `<!` is told apart by its first nine bytes at most, and is at least as long as
its opener. -/
theorem readBang_local {rest : Bytes} (read : readBang (opener :: bang :: rest) = .ok (c, n)) :
    2 ≤ n ∧ SeenIn readBang (opener :: bang :: rest) n (.ok (c, n)) := by
  unfold readBang at read
  by_cases comment : (Bytes.ofAscii "<!--").isPrefixOf (opener :: bang :: rest) = true
  · rw [if_pos comment] at read
    obtain ⟨long, front, tail, whole, length, same⟩ := readSilent_local (by decide) read
    have opened : (Bytes.ofAscii "<!--").length ≤ front.length :=
      length ▸ Nat.le_trans (by decide) long
    refine ⟨Nat.le_trans (by decide) long, front, tail, whole, length, fun more => ?_⟩
    rw [whole, isPrefixOf_append opened tail more] at comment
    rw [readBang, if_pos comment, same]
  · rw [if_neg comment] at read
    -- From here on the construct is at least nine bytes long, so all three tests see it only.
    have told {front tail : Bytes} (nine : 9 ≤ front.length)
        (whole : opener :: bang :: rest = front ++ tail) (more : Bytes) :
        ¬ (Bytes.ofAscii "<!--").isPrefixOf (front ++ more) = true ∧
          (Bytes.ofAscii "<![CDATA[").isPrefixOf (front ++ more) =
            (Bytes.ofAscii "<![CDATA[").isPrefixOf (opener :: bang :: rest) ∧
          (front ++ more).take 9 = (opener :: bang :: rest).take 9 := by
      have four : (Bytes.ofAscii "<!--").length ≤ front.length := Nat.le_trans (by decide) nine
      have nine' : (Bytes.ofAscii "<![CDATA[").length ≤ front.length := nine
      rw [whole] at comment ⊢
      rw [isPrefixOf_append four more tail, isPrefixOf_append nine' more tail,
        List.take_append_of_le_length nine, List.take_append_of_le_length nine]
      exact ⟨comment, rfl, rfl⟩
    by_cases verbatim : (Bytes.ofAscii "<![CDATA[").isPrefixOf (opener :: bang :: rest) = true
    · rw [if_pos verbatim] at read
      obtain ⟨nine, front, tail, whole, length, same⟩ := readVerbatim_local read
      refine ⟨Nat.le_trans (by decide) nine, front, tail, whole, length, fun more => ?_⟩
      obtain ⟨noComment, section?, -⟩ := told (length.symm ▸ nine) whole more
      rw [readBang, if_neg noComment, section?, if_pos verbatim, same]
    · rw [if_neg verbatim] at read
      by_cases named : Bytes.sameLetters (((opener :: bang :: rest).take 9).drop 2)
          (Bytes.ofAscii "DOCTYPE") = true
      · rw [if_pos named] at read
        have nine := nine_le_of_readDeclaration named read
        obtain ⟨front, tail, whole, length, same⟩ := readDeclaration_local read
        refine ⟨Nat.le_trans (by decide) nine, front, tail, whole, length, fun more => ?_⟩
        obtain ⟨noComment, section?, letters⟩ := told (length.symm ▸ nine) whole more
        rw [readBang, if_neg noComment, section?, if_neg verbatim, letters, if_pos named, same]
      · rw [if_neg named] at read
        cases read

/-- The reader of what begins with `<` and another byte. -/
def readMarkup (b : UInt8) (bytes : Bytes) : Except ConstructFault (Construct × Nat) :=
  if b == slash then readEndTag bytes
  else if b == bang then readBang bytes
  else if b == question then readSilent "?>" 2 bytes
  else readStartTag bytes

theorem readConstruct_markup (b : UInt8) (rest : Bytes) :
    readConstruct (opener :: b :: rest) = readMarkup b (opener :: b :: rest) :=
  rfl

theorem two_le_of_readEndTag {rest : Bytes} (read : readEndTag (opener :: rest) = .ok (c, n)) :
    2 ≤ n := by
  unfold readEndTag at read
  split at read
  · next i found =>
    cases read
    rw [Bytes.indexOf?, List.findIdx?_cons, if_neg (by decide)] at found
    obtain ⟨j, -, rfl⟩ := Option.map_eq_some_iff.1 found
    omega
  · cases read

theorem readMarkup_local {b : UInt8} {rest : Bytes}
    (read : readMarkup b (opener :: b :: rest) = .ok (c, n)) :
    2 ≤ n ∧ SeenIn (readMarkup b) (opener :: b :: rest) n (.ok (c, n)) := by
  unfold readMarkup at read ⊢
  by_cases ends : (b == slash) = true
  · simp only [if_pos ends] at read ⊢
    exact ⟨two_le_of_readEndTag read, readEndTag_local read⟩
  simp only [if_neg ends] at read ⊢
  by_cases declares : (b == bang) = true
  · simp only [if_pos declares] at read ⊢
    cases eq_of_beq declares
    exact readBang_local read
  simp only [if_neg declares] at read ⊢
  by_cases instructs : (b == question) = true
  · simp only [if_pos instructs] at read ⊢
    obtain ⟨long, seen⟩ := readSilent_local (by decide) read
    exact ⟨Nat.le_trans (by decide) long, seen⟩
  simp only [if_neg instructs] at read ⊢
  exact readStartTag_local read

/-- What a construct is and where it ends is decided by its own bytes. -/
theorem readConstruct_local (opens : bytes.head? = some opener)
    (read : readConstruct bytes = .ok (c, n)) :
    SeenIn readConstruct bytes n (.ok (c, n)) := by
  obtain ⟨rest, rfl⟩ := List.head?_eq_some_iff.1 opens
  cases rest with
  | nil => cases read
  | cons b rest =>
    obtain ⟨two, front, tail, whole, length, same⟩ := readMarkup_local read
    refine ⟨front, tail, whole, length, fun more => ?_⟩
    obtain ⟨others, rfl⟩ : ∃ others, front = opener :: b :: others := by
      rcases front with _ | ⟨first, _ | ⟨second, others⟩⟩
      · cases length
        cases two
      · cases length
        exact absurd two (Nat.not_succ_le_self 1)
      · injection whole with first_eq whole
        injection whole with second_eq
        exact ⟨others, by rw [first_eq, second_eq]⟩
    exact same more

/-! ## Texts -/

/-- A byte that starts no construct. -/
abbrev isPlain (b : UInt8) : Bool := b != opener

theorem readConstruct_plain (plain : bytes.head? ≠ some opener) :
    readConstruct bytes = .ok (.token (.piece (.text (bytes.takeWhile isPlain))),
      (bytes.takeWhile isPlain).length) := by
  unfold readConstruct
  rw [if_neg fun same => plain (eq_of_beq same)]
  rfl

/-- A text is read from bytes that start no construct, up to a byte that does or to the end. -/
theorem readConstruct_text {text more : Bytes} (filled : text ≠ [])
    (plain : ∀ b ∈ text, isPlain b = true) (ends : ∀ b ∈ more.head?, b = opener) :
    readConstruct (text ++ more) = .ok (.token (.piece (.text text)), text.length) := by
  have kept : (text ++ more).takeWhile isPlain = text := by
    rw [List.takeWhile_append_of_pos plain]
    cases more with
    | nil => simp
    | cons b others => rw [ends b rfl, List.takeWhile_cons_of_neg (by decide), List.append_nil]
  rw [readConstruct_plain, kept]
  intro opens
  obtain ⟨b, others, rfl⟩ := List.exists_cons_of_ne_nil filled
  cases opens
  exact absurd (plain opener List.mem_cons_self) (by decide)

/-- Bytes that begin with a text begin with that text, and what follows starts a construct. -/
theorem exists_text_of_plain (plain : bytes.head? ≠ some opener) (filled : bytes ≠ []) :
    ∃ text tail, bytes = text ++ tail ∧ text ≠ [] ∧ (∀ b ∈ text, isPlain b = true) ∧
      (∀ b ∈ tail.head?, b = opener) ∧
      readConstruct bytes = .ok (.token (.piece (.text text)), text.length) := by
  refine ⟨bytes.takeWhile isPlain, bytes.dropWhile isPlain,
    List.takeWhile_append_dropWhile.symm, ?_, List.all_eq_true.1 List.all_takeWhile, ?_,
    readConstruct_plain plain⟩
  · obtain ⟨b, rest, rfl⟩ := List.exists_cons_of_ne_nil filled
    have first : isPlain b = true := bne_iff_ne.2 fun same => plain (congrArg some same)
    rw [List.takeWhile_cons_of_pos first]
    exact List.cons_ne_nil _ _
  · intro b first
    have stops := List.head?_dropWhile_not isPlain bytes
    rw [Option.mem_def.1 first] at stops
    simpa using stops

/-! ## More bytes and fewer -/

/-- A construct takes no more bytes than there are. -/
theorem readConstruct_le (filled : bytes ≠ []) (read : readConstruct bytes = .ok (c, n)) :
    n ≤ bytes.length := by
  by_cases opens : bytes.head? = some opener
  · obtain ⟨front, tail, rfl, rfl, -⟩ := readConstruct_local opens read
    rw [List.length_append]
    exact Nat.le_add_right _ _
  · obtain ⟨text, tail, rfl, -, -, -, same⟩ := exists_text_of_plain opens filled
    cases same.symm.trans read
    rw [List.length_append]
    exact Nat.le_add_right _ _

/-- A construct is the same before more bytes, unless it is a text that reaches to the end. -/
theorem readConstruct_append (filled : bytes ≠ []) (read : readConstruct bytes = .ok (c, n))
    (ends : bytes.head? = some opener ∨ n < bytes.length) (more : Bytes) :
    readConstruct (bytes ++ more) = .ok (c, n) := by
  by_cases opens : bytes.head? = some opener
  · obtain ⟨front, tail, rfl, -, same⟩ := readConstruct_local opens read
    rw [List.append_assoc]
    exact same _
  · obtain ⟨text, tail, rfl, filled', plain, next, same⟩ := exists_text_of_plain opens filled
    cases same.symm.trans read
    cases tail with
    | nil =>
      have shorter := ends.resolve_left opens
      rw [List.append_nil] at shorter
      exact absurd shorter (Nat.lt_irrefl _)
    | cons b others =>
      rw [List.append_assoc]
      exact readConstruct_text filled' plain next

/-- A construct is the same where bytes after it are cut off. -/
theorem readConstruct_take (filled : bytes ≠ []) (read : readConstruct bytes = .ok (c, n)) {m : Nat}
    (kept : n ≤ m) : readConstruct (bytes.take m) = .ok (c, n) := by
  by_cases opens : bytes.head? = some opener
  · obtain ⟨front, tail, rfl, rfl, same⟩ := readConstruct_local opens read
    rw [List.take_append, List.take_of_length_le kept]
    exact same _
  · obtain ⟨text, tail, rfl, filled', plain, next, same⟩ := exists_text_of_plain opens filled
    cases same.symm.trans read
    rw [List.take_append, List.take_of_length_le kept]
    refine readConstruct_text filled' plain fun b first => next b ?_
    rw [List.head?_take] at first
    split at first
    · cases first
    · exact first

/-- A text that is cut is a shorter text. -/
theorem readConstruct_take_text (plain : bytes.head? ≠ some opener)
    (read : readConstruct bytes = .ok (c, n)) {m : Nat} (pos : 0 < m) (cut : m ≤ n) :
    readConstruct (bytes.take m) = .ok (.token (.piece (.text (bytes.take m))), m) := by
  have filled : bytes ≠ [] := by
    rintro rfl
    cases read
    exact absurd cut (Nat.not_le_of_lt pos)
  obtain ⟨text, tail, rfl, filled', textPlain, -, same⟩ := exists_text_of_plain plain filled
  cases same.symm.trans read
  have length : (text.take m).length = m := List.length_take_of_le cut
  have shorter : readConstruct (text.take m ++ []) = _ :=
    readConstruct_text (List.length_pos_iff.1 (length.symm ▸ pos))
      (fun b held => textPlain b (List.mem_of_mem_take held)) (fun b first => by cases first)
  rw [List.append_nil, length] at shorter
  rw [List.take_append_of_le_length cut, shorter]

/-! ## Constructs that are cut -/

/-- The bytes are the first two or more bytes of the opener of a comment, a verbatim section or a
document type declaration, but not all of it. The letters of the last one may have any case. -/
def CutsOpener (bytes : Bytes) : Prop :=
  2 ≤ bytes.length ∧
    (bytes.length < 4 ∧ bytes <+: Bytes.ofAscii "<!--" ∨
      bytes.length < 9 ∧ bytes <+: Bytes.ofAscii "<![CDATA[" ∨
      bytes.length < 9 ∧ bytes.map Bytes.lower <+: (Bytes.ofAscii "<!DOCTYPE").map Bytes.lower)

instance (bytes : Bytes) : Decidable (CutsOpener bytes) :=
  inferInstanceAs (Decidable (_ ∧ _))

theorem lower_eq_mark {b mark : UInt8} (isMark : mark < 0x41) (same : Bytes.lower b = mark) :
    b = mark := by
  unfold Bytes.lower at same
  split at same
  · grind
  · exact same

theorem CutsOpener.lower_prefix (cuts : CutsOpener bytes) :
    bytes.map Bytes.lower <+: (Bytes.ofAscii "<!--").map Bytes.lower ∨
      bytes.map Bytes.lower <+: (Bytes.ofAscii "<![CDATA[").map Bytes.lower ∨
      bytes.map Bytes.lower <+: (Bytes.ofAscii "<!DOCTYPE").map Bytes.lower := by
  obtain ⟨-, ⟨-, begins⟩ | ⟨-, begins⟩ | ⟨-, begins⟩⟩ := cuts
  · exact .inl (begins.map Bytes.lower)
  · exact .inr (.inl (begins.map Bytes.lower))
  · exact .inr (.inr begins)

theorem CutsOpener.begins (cuts : CutsOpener bytes) :
    ∃ rest, bytes = opener :: bang :: rest := by
  obtain ⟨first, second, rest, rfl⟩ : ∃ first second rest, bytes = first :: second :: rest := by
    match bytes, cuts.1 with
    | first :: second :: rest, _ => exact ⟨first, second, rest, rfl⟩
  have marks : Bytes.lower first = opener ∧ Bytes.lower second = bang := by
    rcases cuts.lower_prefix with begins | begins | begins
    all_goals
      rw [List.map_cons, List.map_cons] at begins
      obtain ⟨first_eq, begins⟩ := List.cons_prefix_cons.1 begins
      exact ⟨first_eq, (List.cons_prefix_cons.1 begins).1⟩
  exact ⟨rest, by rw [lower_eq_mark (by decide) marks.1, lower_eq_mark (by decide) marks.2]⟩

theorem exists_bang_of_unknown (unknown : readConstruct bytes = .error .unknownDeclaration) :
    ∃ rest, bytes = opener :: bang :: rest := by
  by_cases opens : bytes.head? = some opener
  · obtain ⟨rest, rfl⟩ := List.head?_eq_some_iff.1 opens
    cases rest with
    | nil => cases unknown
    | cons b rest =>
      rw [readConstruct_markup, readMarkup] at unknown
      split at unknown
      · unfold readEndTag at unknown
        split at unknown <;> cases unknown
      · split at unknown
        · next declares => exact ⟨rest, by rw [eq_of_beq declares]⟩
        · split at unknown
          · unfold readSilent at unknown
            split at unknown <;> cases unknown
          · unfold readStartTag at unknown
            split at unknown <;> cases unknown
  · rw [readConstruct_plain opens] at unknown
    cases unknown

/-- What begins with `<!` is taken for no declaration where it has none of the three openers. -/
theorem readBang_unknown_iff {rest : Bytes} :
    readBang (opener :: bang :: rest) = .error .unknownDeclaration ↔
      ¬ Bytes.ofAscii "<!--" <+: opener :: bang :: rest ∧
        ¬ Bytes.ofAscii "<![CDATA[" <+: opener :: bang :: rest ∧
          ¬ ((opener :: bang :: rest).take 9).map Bytes.lower =
            (Bytes.ofAscii "<!DOCTYPE").map Bytes.lower := by
  have letters : ((opener :: bang :: rest).take 9).map Bytes.lower =
      (Bytes.ofAscii "<!DOCTYPE").map Bytes.lower ↔
        Bytes.sameLetters (((opener :: bang :: rest).take 9).drop 2)
          (Bytes.ofAscii "DOCTYPE") = true := by
    rw [Bytes.sameLetters, beq_iff_eq]
    exact ⟨fun same => congrArg (List.drop 2) same,
      fun same => congrArg (fun others => opener :: bang :: others) same⟩
  rw [letters, ← List.isPrefixOf_iff_prefix, ← List.isPrefixOf_iff_prefix]
  unfold readBang readSilent readVerbatim readDeclaration
  grind

/-- What ends in the opener of a declaration is taken for none. -/
theorem readConstruct_of_cutsOpener (cuts : CutsOpener bytes) :
    readConstruct bytes = .error .unknownDeclaration := by
  have short : bytes.length < 9 := by
    obtain ⟨-, ⟨short, -⟩ | ⟨short, -⟩ | ⟨short, -⟩⟩ := cuts <;> omega
  obtain ⟨rest, rfl⟩ := cuts.begins
  refine readBang_unknown_iff.2 ⟨fun begins => ?_, fun begins => ?_, fun named => ?_⟩
  · obtain ⟨-, ⟨short, -⟩ | ⟨-, within⟩ | ⟨-, within⟩⟩ := cuts
    · exact absurd begins.length_le (Nat.not_le_of_lt short)
    · exact absurd (begins.trans within) (by decide)
    · exact absurd ((begins.map Bytes.lower).trans within) (by decide)
  · exact absurd begins.length_le (Nat.not_le_of_lt short)
  · have lengths := congrArg List.length named
    rw [List.length_map, List.length_map, List.length_take] at lengths
    have nine : (Bytes.ofAscii "<!DOCTYPE").length = 9 := by decide
    omega

/-- Where a construct is cut and then taken for no declaration, the cut lies in its opener. -/
theorem cutsOpener_of_unknown {m : Nat} (read : readConstruct bytes = .ok (c, n))
    (unknown : readConstruct (bytes.take m) = .error .unknownDeclaration) :
    CutsOpener (bytes.take m) := by
  obtain ⟨kept, begins⟩ := exists_bang_of_unknown unknown
  obtain ⟨rest, rfl⟩ : ∃ rest, bytes = opener :: bang :: rest := by
    refine ⟨kept ++ bytes.drop m, ?_⟩
    rw [← List.cons_append, ← List.cons_append, ← begins, List.take_append_drop]
  rw [begins] at unknown
  obtain ⟨noComment, noSection, unnamed⟩ := readBang_unknown_iff.1 unknown
  rw [← begins] at noComment noSection unnamed
  have inside : (opener :: bang :: rest).take m <+: opener :: bang :: rest := List.take_prefix m _
  have two : 2 ≤ ((opener :: bang :: rest).take m).length := by
    rw [begins]
    exact Nat.le_add_left _ _
  -- An opener of the whole that is none of what is kept is longer than that.
  have shorter {whole : Bytes} (opens : whole <+: opener :: bang :: rest)
      (cut : ¬ whole <+: (opener :: bang :: rest).take m) :
      ((opener :: bang :: rest).take m).length < whole.length ∧
        (opener :: bang :: rest).take m <+: whole := by
    have less : ((opener :: bang :: rest).take m).length < whole.length :=
      Nat.lt_of_not_le fun fits => cut (List.prefix_of_prefix_length_le opens inside fits)
    exact ⟨less, List.prefix_of_prefix_length_le inside opens (Nat.le_of_lt less)⟩
  by_cases comment : Bytes.ofAscii "<!--" <+: opener :: bang :: rest
  · exact ⟨two, .inl (shorter comment noComment)⟩
  by_cases verbatim : Bytes.ofAscii "<![CDATA[" <+: opener :: bang :: rest
  · exact ⟨two, .inr (.inl (shorter verbatim noSection))⟩
  by_cases named : ((opener :: bang :: rest).take 9).map Bytes.lower =
      (Bytes.ofAscii "<!DOCTYPE").map Bytes.lower
  · have less : m < 9 := by
      refine Nat.lt_of_not_le fun fits => unnamed ?_
      rw [List.take_take, Nat.min_eq_left fits, named]
    refine ⟨two, .inr (.inr ⟨Nat.lt_of_le_of_lt (List.length_take_le m _) less, ?_⟩)⟩
    rw [← named]
    exact (List.take_prefix_take_left (Nat.le_of_lt less)).map Bytes.lower
  · rw [readConstruct_markup] at read
    cases (readBang_unknown_iff.2 ⟨comment, verbatim, named⟩).symm.trans read

/-- Where a construct that is no text is cut, it is none. -/
theorem readConstruct_cut (opens : bytes.head? = some opener)
    (read : readConstruct bytes = .ok (c, n)) {m : Nat} (pos : 0 < m) (cut : m < n) :
    readConstruct (bytes.take m) =
      .error (if CutsOpener (bytes.take m) then .unknownDeclaration else .unclosed) := by
  have head : (bytes.take m).head? = some opener := by
    rw [List.head?_take, if_neg (Nat.ne_of_gt pos), opens]
  have filled : bytes.take m ≠ [] := fun nothing => by
    rw [nothing] at head
    cases head
  rcases outcome : readConstruct (bytes.take m) with fault | ⟨c', n'⟩
  · refine congrArg _ ?_
    by_cases cuts : CutsOpener (bytes.take m)
    · rw [if_pos cuts]
      cases (readConstruct_of_cutsOpener cuts).symm.trans outcome
      rfl
    · rw [if_neg cuts]
      cases fault with
      | unclosed => rfl
      | unknownDeclaration => exact absurd (cutsOpener_of_unknown read outcome) cuts
  · -- What is found before the cut would be found without it, but it is too short.
    have short := readConstruct_le filled outcome
    have whole := readConstruct_append filled outcome (.inl head) (bytes.drop m)
    rw [List.take_append_drop, read] at whole
    cases whole
    rw [List.length_take] at short
    omega

end

end GraphScribe.Markup
