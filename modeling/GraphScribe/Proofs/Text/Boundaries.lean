import GraphScribe.Text.Utf8

/-!
# Where characters begin in bytes

A character below U+0080 is one byte; any other is a first byte that no such character has and
bytes that continue it. So a scan of the bytes for something that ASCII characters decide stops
where a scan of the characters does, and what it cuts off are whole characters.

* `Utf8.encode_span`: the two scans agree.
* `Utf8.encode_tail`: a character ends where no byte continues it any more.
* `isPrefix_of_encode`, `count_encode`: the form of a text tells what is at its front, and how often
  an ASCII character is in it.
* `IsBoundary`: the offsets between characters.
-/

namespace GraphScribe.Utf8

/-! ## The bytes of a character -/

theorem encode_nil : encode [] = [] := rfl

theorem encode_cons (c : Char) (text : List Char) :
    encode (c :: text) = String.utf8EncodeChar c ++ encode text :=
  List.flatMap_cons

theorem encode_append (first second : List Char) :
    encode (first ++ second) = encode first ++ encode second :=
  List.flatMap_append

/-- The character has a byte of its own. -/
def IsAscii (c : Char) : Prop := c.val.toNat ≤ 127

instance (c : Char) : Decidable (IsAscii c) := inferInstanceAs (Decidable (_ ≤ _))

theorem encodeChar_of_ascii {c : Char} (ascii : IsAscii c) :
    String.utf8EncodeChar c = [UInt8.ofNat c.val.toNat] :=
  if_pos ascii

/-- The bytes of a character beyond ASCII: a first byte, and those that continue it. -/
theorem encodeChar_of_not_ascii {c : Char} (wide : ¬ IsAscii c) :
    ∃ lead tail, String.utf8EncodeChar c = lead :: tail ∧ 0xC0 ≤ lead ∧
      ∀ b ∈ tail, isContinuation b = true := by
  have continues (n : Nat) : isContinuation (UInt8.ofNat (n % 64 + 128)) = true := by
    simp only [isContinuation, Bool.and_eq_true, decide_eq_true_eq, UInt8.le_iff_toNat_le,
      UInt8.lt_iff_toNat_lt, UInt8.toNat_ofNat']
    have : UInt8.toNat 0x80 = 128 := rfl
    have : UInt8.toNat 0xC0 = 192 := rfl
    omega
  have leads {n : Nat} (least : 192 ≤ n) (most : n < 256) : (0xC0 : UInt8) ≤ UInt8.ofNat n := by
    rw [UInt8.le_iff_toNat_le, UInt8.toNat_ofNat', Nat.mod_eq_of_lt most]
    exact least
  have high : ¬ c.val.toNat ≤ 127 := wide
  rw [String.utf8EncodeChar, if_neg high]
  split
  · exact ⟨_, _, rfl, leads (by omega) (by omega), by
      simp only [List.forall_mem_cons, continues, true_and]; exact nofun⟩
  · split
    · exact ⟨_, _, rfl, leads (by omega) (by omega), by
      simp only [List.forall_mem_cons, continues, true_and]; exact nofun⟩
    · exact ⟨_, _, rfl, leads (by omega) (by omega), by
      simp only [List.forall_mem_cons, continues, true_and]; exact nofun⟩

theorem encode_cons_ne_nil (c : Char) (text : List Char) : encode (c :: text) ≠ [] := by
  rw [encode_cons]
  exact fun nothing => String.utf8EncodeChar_ne_nil (List.append_eq_nil_iff.1 nothing).1

/-- No byte below 0x80 is part of a character beyond ASCII. -/
theorem le_of_mem_encodeChar {c : Char} (wide : ¬ IsAscii c) {b : UInt8}
    (held : b ∈ String.utf8EncodeChar c) : 0x80 ≤ b := by
  obtain ⟨lead, tail, bytes, least, continues⟩ := encodeChar_of_not_ascii wide
  rw [bytes] at held
  rcases List.mem_cons.1 held with rfl | held
  · exact UInt8.le_trans (by decide) least
  · have within := continues b held
    simp only [isContinuation, Bool.and_eq_true, decide_eq_true_eq] at within
    exact within.1

theorem not_isContinuation_of_le {lead : UInt8} (least : 0xC0 ≤ lead) :
    isContinuation lead = false := by
  simp only [isContinuation, Bool.and_eq_false_iff, decide_eq_false_iff_not]
  exact .inr (UInt8.not_lt.2 least)

/-! ## Scans -/

/-- A test of bytes decides for the whole of a character what a test of characters says: all bytes
pass it, or the first one does not. -/
structure Agrees (p : Char → Bool) (q : UInt8 → Bool) : Prop where
  inside : ∀ c, p c = true → ∀ b ∈ String.utf8EncodeChar c, q b = true
  outside : ∀ c, p c = false → ∃ b rest, String.utf8EncodeChar c = b :: rest ∧ q b = false

/-- Tests agree if they do on ASCII and say the same of everything beyond it. -/
theorem agrees_of_ascii {p : Char → Bool} {q : UInt8 → Bool} (beyond : Bool)
    (ascii : ∀ n : Fin 128, q (UInt8.ofNat n) = p (Char.ofNat n))
    (wide : ∀ c, ¬ IsAscii c → p c = beyond) (wideByte : ∀ b, 0x80 ≤ b → q b = beyond) :
    Agrees p q := by
  have same {c : Char} (isAscii : IsAscii c) : q (UInt8.ofNat c.val.toNat) = p c := by
    have here := ascii ⟨c.val.toNat, Nat.lt_succ_of_le isAscii⟩
    rwa [show Char.ofNat c.val.toNat = c from Char.ofNat_toNat c] at here
  constructor
  · intro c passes b held
    by_cases isAscii : IsAscii c
    · rw [encodeChar_of_ascii isAscii] at held
      rw [List.mem_singleton.1 held, same isAscii, passes]
    · rw [wideByte b (le_of_mem_encodeChar isAscii held), ← wide c isAscii, passes]
  · intro c fails
    by_cases isAscii : IsAscii c
    · exact ⟨_, [], encodeChar_of_ascii isAscii, (same isAscii).trans fails⟩
    · obtain ⟨lead, tail, bytes, least, -⟩ := encodeChar_of_not_ascii isAscii
      refine ⟨lead, tail, bytes, ?_⟩
      rw [wideByte lead (UInt8.le_trans (by decide) least), ← wide c isAscii, fails]

/-- A scan of the bytes stops where a scan of the characters does. -/
theorem encode_span {p : Char → Bool} {q : UInt8 → Bool} (agrees : Agrees p q)
    (text : List Char) :
    (encode text).takeWhile q = encode (text.takeWhile p) ∧
      (encode text).dropWhile q = encode (text.dropWhile p) := by
  induction text with
  | nil => exact ⟨rfl, rfl⟩
  | cons c rest ih =>
    rw [encode_cons]
    cases passes : p c with
    | true =>
      rw [List.takeWhile_append_of_pos (agrees.inside c passes),
        List.dropWhile_append_of_pos (agrees.inside c passes), List.takeWhile_cons_of_pos passes,
        List.dropWhile_cons_of_pos passes, ih.1, ih.2, encode_cons]
      exact ⟨rfl, rfl⟩
    | false =>
      obtain ⟨b, tail, bytes, stops⟩ := agrees.outside c passes
      have stop : ¬ p c = true := by simp [passes]
      have stopByte : ¬ q b = true := by simp [stops]
      rw [List.takeWhile_cons_of_neg stop, List.dropWhile_cons_of_neg stop, encode_cons, bytes,
        List.cons_append, List.takeWhile_cons_of_neg stopByte, List.dropWhile_cons_of_neg stopByte]
      exact ⟨rfl, rfl⟩

/-- What follows a character does not begin with a byte that continues it. -/
theorem head_encode {text : List Char} {b : UInt8} {rest : Bytes} (bytes : encode text = b :: rest) :
    isContinuation b = false := by
  cases text with
  | nil => cases bytes
  | cons c others =>
    rw [encode_cons] at bytes
    by_cases ascii : IsAscii c
    · rw [encodeChar_of_ascii ascii] at bytes
      cases bytes
      have small : (UInt8.ofNat c.val.toNat).toNat ≤ 127 := by
        rw [UInt8.toNat_ofNat']
        exact Nat.le_trans (Nat.mod_le _ _) ascii
      simp only [isContinuation, Bool.and_eq_false_iff, decide_eq_false_iff_not]
      refine .inl fun least => ?_
      have := UInt8.le_iff_toNat_le.1 least
      have : UInt8.toNat 0x80 = 128 := rfl
      omega
    · obtain ⟨lead, tail, form, least, -⟩ := encodeChar_of_not_ascii ascii
      rw [form] at bytes
      cases bytes
      exact not_isContinuation_of_le least

/-- A character ends before the next byte that does not continue it. -/
theorem encode_tail {c : Char} {text : List Char} {lead : UInt8} {rest : Bytes}
    (bytes : encode (c :: text) = lead :: rest) :
    1 + (rest.takeWhile isContinuation).length = (encode [c]).length := by
  have stops : (encode text).takeWhile isContinuation = [] := by
    cases form : encode text with
    | nil => rfl
    | cons b others =>
      have stop : ¬ isContinuation b = true := by simp [head_encode form]
      rw [List.takeWhile_cons_of_neg stop]
  have continued : ∃ tail, String.utf8EncodeChar c = lead :: tail ∧ rest = tail ++ encode text ∧
      ∀ b ∈ tail, isContinuation b = true := by
    rw [encode_cons] at bytes
    by_cases ascii : IsAscii c
    · rw [encodeChar_of_ascii ascii] at bytes ⊢
      cases bytes
      exact ⟨[], rfl, rfl, nofun⟩
    · obtain ⟨lead', tail, form, -, continues⟩ := encodeChar_of_not_ascii ascii
      rw [form] at bytes ⊢
      cases bytes
      exact ⟨tail, rfl, rfl, continues⟩
  obtain ⟨tail, form, rfl, continues⟩ := continued
  rw [List.takeWhile_append_of_pos continues, stops, List.append_nil, encode_cons, form,
    encode_nil, List.append_nil, List.length_cons, Nat.add_comm]

/-! ## Fronts -/

/-- A text whose form is at the front of a form is at the front of the text. -/
theorem isPrefix_of_encode {front text : List Char} {rest : Bytes}
    (bytes : encode text = encode front ++ rest) : front <+: text := by
  have whole : front.utf8Encode ++ rest.toByteArray = text.utf8Encode := by
    rw [List.utf8Encode, List.utf8Encode, ← List.toByteArray_append]
    exact congrArg List.toByteArray bytes.symm
  exact List.isPrefix_of_utf8Encode_append_eq_utf8Encode _ whole

/-- No other character has the byte of an ASCII character. -/
theorem not_mem_encodeChar {c d : Char} (ascii : IsAscii c) (ne : d ≠ c) :
    UInt8.ofNat c.val.toNat ∉ String.utf8EncodeChar d := by
  have small {e : Char} (isAscii : IsAscii e) : (UInt8.ofNat e.val.toNat).toNat = e.val.toNat := by
    rw [UInt8.toNat_ofNat', Nat.mod_eq_of_lt]
    exact Nat.lt_of_le_of_lt isAscii (by decide)
  intro held
  by_cases isAscii : IsAscii d
  · rw [encodeChar_of_ascii isAscii, List.mem_singleton] at held
    have values := congrArg UInt8.toNat held
    rw [small ascii, small isAscii] at values
    exact ne (Char.ext (UInt32.toNat_inj.1 values.symm))
  · have least := UInt8.le_iff_toNat_le.1 (le_of_mem_encodeChar isAscii held)
    rw [small ascii] at least
    exact absurd (Nat.le_trans least ascii) (by decide)

/-- A character of one byte is as often in a text as its byte is in the form of the text. -/
theorem count_encode {c : Char} (ascii : IsAscii c) (text : List Char) :
    (encode text).count (UInt8.ofNat c.val.toNat) = text.count c := by
  induction text with
  | nil => rfl
  | cons d text ih =>
    rw [encode_cons, List.count_append, ih]
    by_cases same : d = c
    · subst same
      rw [encodeChar_of_ascii ascii, List.count_singleton_self, List.count_cons_self, Nat.add_comm]
    · rw [List.count_eq_zero.2 (not_mem_encodeChar ascii same), List.count_cons_of_ne same,
        Nat.zero_add]

end GraphScribe.Utf8

namespace GraphScribe.Text

/-- The offset lies between two characters of a text, or at one of its ends. -/
def IsBoundary (text : List Char) (offset : Nat) : Prop :=
  ∃ front rest, text = front ++ rest ∧ (Utf8.encode front).length = offset

theorem isBoundary_of_append (front rest : List Char) :
    IsBoundary (front ++ rest) (Utf8.encode front).length :=
  ⟨front, rest, rfl, rfl⟩

/-- From a boundary on, the bytes are those of the characters that follow. -/
theorem IsBoundary.exists_drop {text : List Char} {offset : Nat} (h : IsBoundary text offset) :
    ∃ front rest, text = front ++ rest ∧ (Utf8.encode front).length = offset ∧
      (Utf8.encode text).drop offset = Utf8.encode rest := by
  obtain ⟨front, rest, rfl, rfl⟩ := h
  refine ⟨front, rest, rfl, rfl, ?_⟩
  rw [Utf8.encode_append, List.drop_left]

/-- A boundary of what follows a boundary is one of the whole text. -/
theorem IsBoundary.add {front rest : List Char} {offset : Nat} (h : IsBoundary rest offset) :
    IsBoundary (front ++ rest) ((Utf8.encode front).length + offset) := by
  obtain ⟨middle, after, rfl, rfl⟩ := h
  refine ⟨front ++ middle, after, (List.append_assoc _ _ _).symm, ?_⟩
  rw [Utf8.encode_append, List.length_append]

end GraphScribe.Text
