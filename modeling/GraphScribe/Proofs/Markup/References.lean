import GraphScribe.Markup.Reference
import Mathlib.Data.Nat.Digits.Defs
import Mathlib.Tactic.Ring

/-!
# What references stand for

A text says what it shows once each of its references is replaced by the character that it stands
for: one of five names, or the code of a character in decimal or hexadecimal digits. A text with an
ampersand that begins no such reference says nothing, and the first of them is reported.

* `expand_eq_ok`: what a text says.
* `expand_eq_error`: what is reported of a text that says nothing.
* `expand_escaped`: every text can be said.
-/

namespace GraphScribe

/-! ## Digits -/

namespace Integer

/-- Digits are read if they are digits, to the value that they have by position, if that is within
the limit. The induction is on the digits; the value so far only grows. -/
theorem readDigits_eq_ok {base limit value n : Nat} {fault : Fault} (positive : 0 < base)
    {digits : List Char} :
    readDigits base limit fault value digits = .ok n ↔
      ∃ ds : List Nat, digits.map (digit? base) = ds.map some ∧
        n = value * base ^ ds.length + Nat.ofDigits base ds.reverse ∧ (ds = [] ∨ n ≤ limit) := by
  induction digits generalizing value with
  | nil =>
    simp only [readDigits, Except.ok.injEq, List.map_nil]
    constructor
    · rintro rfl
      exact ⟨[], rfl, by simp, .inl rfl⟩
    · rintro ⟨ds, none, rfl, -⟩
      cases List.map_eq_nil_iff.1 none.symm
      simp
  | cons c rest ih =>
    have grows (d : Nat) (ds : List Nat) :
        value * base ^ (d :: ds).length + Nat.ofDigits base (d :: ds).reverse =
          (value * base + d) * base ^ ds.length + Nat.ofDigits base ds.reverse := by
      rw [List.reverse_cons, Nat.ofDigits_append, List.length_reverse, Nat.ofDigits_singleton,
        List.length_cons]
      ring
    cases is : digit? base c with
    | none =>
      simp only [readDigits, is, List.map_cons]
      refine iff_of_false nofun ?_
      rintro ⟨ds, same, -⟩
      cases ds <;> cases same
    | some d =>
      simp only [readDigits, is, List.map_cons]
      by_cases past : limit < value * base + d
      · rw [if_pos past]
        refine iff_of_false nofun ?_
        rintro ⟨ds, same, rfl, within⟩
        obtain ⟨d', ds, rfl⟩ : ∃ d' ds', ds = d' :: ds' := by
          cases ds with
          | nil => cases same
          | cons d' ds' => exact ⟨d', ds', rfl⟩
        cases (List.cons.inj same).1
        have atLeast := Nat.le_mul_of_pos_right (value * base + d)
          (Nat.pow_pos (n := ds.length) positive)
        rw [grows] at within
        have := within.resolve_left (List.cons_ne_nil _ _)
        omega
      · rw [if_neg past, ih]
        constructor
        · rintro ⟨ds, same, rfl, within⟩
          refine ⟨d :: ds, by rw [List.map_cons, same], (grows d ds).symm, .inr ?_⟩
          rcases within with rfl | within
          · simpa using past
          · exact within
        · rintro ⟨ds, same, rfl, within⟩
          cases ds with
          | nil => cases same
          | cons d' ds =>
            obtain ⟨first, others⟩ := List.cons.inj same
            cases first
            exact ⟨ds, others, grows d ds, .inr (within.resolve_left (List.cons_ne_nil _ _))⟩

end Integer

namespace Markup.Reference

/-! ## One reference -/

/-- Digits that are the code of a character, which may not be zero. -/
structure HasCode (base : Nat) (digits : List Char) (c : Char) : Prop where
  value : ∃ ds : List Nat, ds ≠ [] ∧ digits.map (Integer.digit? base) = ds.map some ∧
    Nat.ofDigits base ds.reverse = c.toNat
  notZero : c.toNat ≠ 0

/-- A reference of a name stands for a character. -/
inductive StandsFor : List Char → Char → Prop where
  | lt : StandsFor ['l', 't'] '<'
  | gt : StandsFor ['g', 't'] '>'
  | amp : StandsFor ['a', 'm', 'p'] '&'
  | apos : StandsFor ['a', 'p', 'o', 's'] '\''
  | quot : StandsFor ['q', 'u', 'o', 't'] '"'
  | decimal {digits : List Char} {c : Char} (code : HasCode 10 digits c) :
      StandsFor ('#' :: digits) c
  | hexadecimal {digits : List Char} {c : Char} (code : HasCode 16 digits c) :
      StandsFor ('#' :: 'x' :: digits) c

theorem ofCode_eq_ok {code : Nat} {c : Char} :
    ofCode code = .ok c ↔ c.toNat = code ∧ code ≠ 0 := by
  unfold ofCode
  by_cases zero : code = 0
  · rw [if_pos zero]
    simp [zero]
  · rw [if_neg zero]
    by_cases valid : code.isValidChar
    · rw [dif_pos valid, Except.ok.injEq]
      constructor
      · rintro rfl
        exact ⟨rfl, zero⟩
      · rintro ⟨rfl, -⟩
        exact Char.toNat_inj.1 rfl
    · rw [dif_neg valid]
      refine iff_of_false (by simp) ?_
      rintro ⟨rfl, -⟩
      exact valid c.valid

/-- A sign is no digit. -/
theorem not_hasCode_of_sign {base : Nat} {digits : List Char} {c sign : Char}
    (noDigit : Integer.digit? base sign = none) : ¬ HasCode base (sign :: digits) c := by
  rintro ⟨⟨ds, -, same, -⟩, -⟩
  rw [List.map_cons, noDigit] at same
  cases ds <;> cases same

/-- Digits without a sign are read as they are. -/
theorem readNat_eq {base limit : Nat} {digits : List Char} (filled : digits ≠ [])
    (noSign : ∀ rest, digits ≠ '+' :: rest) :
    Integer.readNat base limit digits = Integer.readDigits base limit .tooLarge 0 digits := by
  unfold Integer.readNat
  split
  · exact absurd rfl filled
  · exact absurd rfl (noSign [])
  · next rest _ => exact absurd rfl (noSign rest)
  · rfl

theorem readCode_eq_ok {base : Nat} {digits : List Char} {c : Char} (positive : 0 < base) :
    readCode base digits = .ok c ↔ HasCode base digits c := by
  unfold readCode
  split
  · exact iff_of_false nofun (not_hasCode_of_sign rfl)
  · exact iff_of_false nofun (not_hasCode_of_sign rfl)
  · next noPlus _ =>
    constructor
    · intro ok
      split at ok
      · next code isRead =>
        obtain ⟨rfl, notZero⟩ := ofCode_eq_ok.1 ok
        have filled : digits ≠ [] := by
          rintro rfl
          cases isRead
        rw [readNat_eq filled noPlus, Integer.readDigits_eq_ok positive] at isRead
        obtain ⟨ds, same, value, -⟩ := isRead
        refine ⟨⟨ds, ?_, same, by simpa using value.symm⟩, notZero⟩
        rintro rfl
        exact filled (List.map_eq_nil_iff.1 same)
      · cases ok
    · rintro ⟨⟨ds, someDigit, same, value⟩, notZero⟩
      have filled : digits ≠ [] := by
        rintro rfl
        exact someDigit (List.map_eq_nil_iff.1 same.symm)
      have small : c.toNat ≤ 0xFFFFFFFF := Nat.le_of_lt_succ c.val.toNat_lt
      rw [readNat_eq filled noPlus, (Integer.readDigits_eq_ok positive).2
        ⟨ds, same, by simpa using value.symm, .inr small⟩]
      exact ofCode_eq_ok.2 ⟨rfl, notZero⟩

theorem named?_eq_some {name : List Char} {c : Char} (notCode : ∀ rest, name ≠ '#' :: rest) :
    named? name = some c ↔ StandsFor name c := by
  constructor
  · intro known
    obtain ⟨before, after, table, -⟩ := List.lookup_eq_some_iff.1 known
    have entry : (String.ofList name, c) ∈
        [("lt", '<'), ("gt", '>'), ("amp", '&'), ("apos", '\''), ("quot", '"')] := by
      rw [table]
      simp
    have spelled {text : String} (same : String.ofList name = text) : name = text.toList := by
      rw [← same, String.toList_ofList]
    simp only [List.mem_cons, List.not_mem_nil, or_false, Prod.mk.injEq] at entry
    rcases entry with ⟨same, rfl⟩ | ⟨same, rfl⟩ | ⟨same, rfl⟩ | ⟨same, rfl⟩ | ⟨same, rfl⟩ <;>
      rw [spelled same]
    · exact .lt
    · exact .gt
    · exact .amp
    · exact .apos
    · exact .quot
  · intro stands
    cases stands with
    | lt | gt | amp | apos | quot => decide
    | decimal | hexadecimal => exact absurd rfl (notCode _)

theorem mapError_eq_ok {ε ε' α : Type} {f : ε → ε'} {x : Except ε α} {a : α} :
    x.mapError f = .ok a ↔ x = .ok a := by
  cases x <;> simp [Except.mapError]

/-- A reference is resolved to the character that it stands for, wherever it is. -/
theorem resolve_eq_ok {start : Nat} {name : List Char} {c : Char} :
    resolve start name = .ok c ↔ StandsFor name c := by
  unfold resolve
  split
  · next digits =>
    rw [mapError_eq_ok, readCode_eq_ok (by decide)]
    constructor
    · exact .hexadecimal
    · intro stands
      cases stands with
      | decimal code => exact absurd code (not_hasCode_of_sign (by decide))
      | hexadecimal code => exact code
  · next digits notHexadecimal =>
    rw [mapError_eq_ok, readCode_eq_ok (by decide)]
    constructor
    · exact .decimal
    · intro stands
      cases stands with
      | decimal code => exact code
      | hexadecimal code => exact absurd rfl (notHexadecimal _)
  · next notHexadecimal notDecimal =>
    rw [← named?_eq_some notDecimal]
    cases named? name <;> simp

/-! ## Texts with references -/

/-- A text and what is read in place of it. -/
inductive Expands : List Char → List Char → Prop where
  | nil : Expands [] []
  | plain {c : Char} {text shown : List Char} (noReference : c ≠ '&')
      (rest : Expands text shown) : Expands (c :: text) (c :: shown)
  | reference {name : List Char} {c : Char} {text shown : List Char}
      (isName : ∀ c ∈ name, isNameChar c = true) (standsFor : StandsFor name c)
      (rest : Expands text shown) : Expands ('&' :: (name ++ ';' :: text)) (c :: shown)

/-- What is reported of an ampersand at the byte `start` of `length` bytes, before a text: the
reference that it begins never ends, or stands for nothing. -/
inductive Fails (length start : Nat) (text : List Char) : Fault → Prop where
  | unterminated (endless : ∀ name rest, (∀ c ∈ name, isNameChar c = true) →
      text ≠ name ++ ';' :: rest) : Fails length start text (.unterminated start length)
  | unresolved {name rest : List Char} {fault : Fault}
      (isName : ∀ c ∈ name, isNameChar c = true) (is : text = name ++ ';' :: rest)
      (fails : resolve (start + 1) name = .error fault) : Fails length start text fault

/-- A text cannot be expanded: what comes before some ampersand can, and nothing is there for that
one. -/
def FailsAfter (length offset : Nat) (text : List Char) (fault : Fault) : Prop :=
  ∃ front shown rest, text = front ++ '&' :: rest ∧ Expands front shown ∧
    Fails length (offset + size front) rest fault

theorem size_cons (c : Char) (text : List Char) : size (c :: text) = c.utf8Size + size text := by
  have from_ (bytes : Nat) (text : List Char) :
      text.foldl (fun bytes c => bytes + c.utf8Size) bytes = bytes + size text := by
    induction text generalizing bytes with
    | nil => rfl
    | cons d rest ih =>
      rw [size, List.foldl_cons, List.foldl_cons, ih, ih (0 + d.utf8Size)]
      omega
  rw [size, List.foldl_cons, from_]
  omega

theorem size_append (front back : List Char) : size (front ++ back) = size front + size back := by
  induction front with
  | nil => simp [size]
  | cons c front ih => rw [List.cons_append, size_cons, size_cons, ih, Nat.add_assoc]

/-- The bytes of a reference: an ampersand, the name and a semicolon. -/
theorem size_reference (name rest : List Char) :
    size ('&' :: (name ++ ';' :: rest)) = size name + 2 + size rest := by
  rw [size_cons, size_append, size_cons, show '&'.utf8Size = 1 from rfl,
    show ';'.utf8Size = 1 from rfl]
  omega

/-- A name ends at the first semicolon. -/
theorem split_name {name rest : List Char} (isName : ∀ c ∈ name, isNameChar c = true) :
    (name ++ ';' :: rest).takeWhile isNameChar = name ∧
      (name ++ ';' :: rest).dropWhile isNameChar = ';' :: rest := by
  rw [List.takeWhile_append_of_pos isName, List.dropWhile_append_of_pos isName]
  exact ⟨List.append_nil name, rfl⟩

/-- A text that a semicolon follows after its first part without one begins with a name. -/
theorem eq_of_dropWhile {text rest : List Char} (ends : text.dropWhile isNameChar = ';' :: rest) :
    text = text.takeWhile isNameChar ++ ';' :: rest := by
  rw [← ends, List.takeWhile_append_dropWhile]

theorem isNameChar_of_takeWhile (text : List Char) :
    ∀ c ∈ text.takeWhile isNameChar, isNameChar c = true :=
  List.all_eq_true.1 List.all_takeWhile

/-! ## Expansion -/

section

variable {length offset : Nat} {done text rest name : List Char} {c : Char} {fault : Fault}

theorem expandFrom_plain (noReference : c ≠ '&') :
    expandFrom length offset done (c :: rest) =
      expandFrom length (offset + c.utf8Size) (c :: done) rest := by
  rw [expandFrom, if_neg noReference]

theorem expandFrom_resolved (isName : ∀ c ∈ name, isNameChar c = true)
    (resolved : resolve (offset + 1) name = .ok c) :
    expandFrom length offset done ('&' :: (name ++ ';' :: rest)) =
      expandFrom length (offset + size name + 2) (c :: done) rest := by
  rw [expandFrom, if_pos rfl]
  dsimp only
  split
  · next after ends =>
    cases (split_name isName).2.symm.trans ends
    rw [(split_name isName).1, resolved]
  · next endless => exact absurd (split_name isName).2 (endless rest)

theorem expandFrom_unresolved (isName : ∀ c ∈ name, isNameChar c = true)
    (unresolved : resolve (offset + 1) name = .error fault) :
    expandFrom length offset done ('&' :: (name ++ ';' :: rest)) = .error fault := by
  rw [expandFrom, if_pos rfl]
  dsimp only
  split
  · rw [(split_name isName).1, unresolved]
  · next endless => exact absurd (split_name isName).2 (endless rest)

theorem expandFrom_unterminated
    (endless : ∀ name rest, (∀ c ∈ name, isNameChar c = true) → text ≠ name ++ ';' :: rest) :
    expandFrom length offset done ('&' :: text) = .error (.unterminated offset length) := by
  rw [expandFrom, if_pos rfl]
  dsimp only
  split
  · next rest ends =>
    exact absurd (eq_of_dropWhile ends) (endless _ rest (isNameChar_of_takeWhile text))
  · rfl

/-- Expansion gets past a text that can be expanded. The induction is on how it can. -/
theorem expandFrom_append {front shown : List Char} (expands : Expands front shown) :
    expandFrom length offset done (front ++ rest) =
      expandFrom length (offset + size front) (shown.reverse ++ done) rest := by
  induction expands generalizing offset done with
  | nil => rfl
  | plain noReference _ ih =>
    rw [List.cons_append, expandFrom_plain noReference, ih, size_cons, List.reverse_cons,
      List.append_assoc, Nat.add_assoc]
    rfl
  | @reference name c front shown isName standsFor _ ih =>
    have split : '&' :: (name ++ ';' :: front) ++ rest = '&' :: (name ++ ';' :: (front ++ rest)) := by
      simp
    rw [split, expandFrom_resolved isName (resolve_eq_ok.2 standsFor), ih, size_reference,
      List.reverse_cons, List.append_assoc, Nat.add_assoc, Nat.add_assoc, Nat.add_assoc]
    rfl

theorem expandFrom_of_failsAfter (fails : FailsAfter length offset text fault) :
    expandFrom length offset done text = .error fault := by
  obtain ⟨front, shown, rest, rfl, expands, fails⟩ := fails
  rw [expandFrom_append expands]
  cases fails with
  | unterminated endless => exact expandFrom_unterminated endless
  | unresolved isName is fails =>
    rw [is]
    exact expandFrom_unresolved isName fails

theorem FailsAfter.plain (noReference : c ≠ '&')
    (fails : FailsAfter length (offset + c.utf8Size) rest fault) :
    FailsAfter length offset (c :: rest) fault := by
  obtain ⟨front, shown, rest, rfl, expands, fails⟩ := fails
  refine ⟨c :: front, c :: shown, rest, rfl, .plain noReference expands, ?_⟩
  rwa [size_cons, ← Nat.add_assoc]

theorem FailsAfter.reference (isName : ∀ c ∈ name, isNameChar c = true)
    (standsFor : StandsFor name c)
    (fails : FailsAfter length (offset + (size name + 2)) rest fault) :
    FailsAfter length offset ('&' :: (name ++ ';' :: rest)) fault := by
  obtain ⟨front, shown, rest, rfl, expands, fails⟩ := fails
  refine ⟨_, _, rest, ?_, .reference isName standsFor expands, ?_⟩
  · simp
  · rwa [size_reference, ← Nat.add_assoc]

/-- A text can be expanded, or it has a first ampersand that stands for nothing. The induction is on
the length of the text, as a reference takes away more than one character. -/
theorem expands_or_failsAfter (length offset : Nat) (text : List Char) :
    (∃ shown, Expands text shown) ∨ ∃ fault, FailsAfter length offset text fault := by
  induction bound : text.length using Nat.strong_induction_on generalizing offset text with
  | _ n ih =>
    subst bound
    cases text with
    | nil => exact .inl ⟨[], .nil⟩
    | cons c rest =>
      by_cases noReference : c = '&'
      · subst noReference
        by_cases ends : ∃ after, rest.dropWhile isNameChar = ';' :: after
        · obtain ⟨after, ends⟩ := ends
          have isName := isNameChar_of_takeWhile rest
          have is := eq_of_dropWhile ends
          have shorter : after.length < ('&' :: rest).length :=
            (length_lt_of_dropWhile_eq_cons ends).trans (Nat.lt_succ_self _)
          generalize rest.takeWhile isNameChar = name at isName is
          subst is
          cases resolved : resolve (offset + 1) name with
          | ok c =>
            have standsFor := resolve_eq_ok.1 resolved
            rcases ih _ shorter (offset + (size name + 2)) after rfl with
              ⟨shown, expands⟩ | ⟨fault, fails⟩
            · exact .inl ⟨_, .reference isName standsFor expands⟩
            · exact .inr ⟨fault, fails.reference isName standsFor⟩
          | error fault =>
            exact .inr ⟨fault, [], [], _, rfl, .nil, .unresolved isName rfl resolved⟩
        · refine .inr ⟨_, [], [], rest, rfl, .nil, .unterminated fun name after isName is => ?_⟩
          subst is
          exact ends ⟨after, (split_name isName).2⟩
      · rcases ih _ (Nat.lt_succ_self _) (offset + c.utf8Size) rest rfl with
          ⟨shown, expands⟩ | ⟨fault, fails⟩
        · exact .inl ⟨_, .plain noReference expands⟩
        · exact .inr ⟨fault, fails.plain noReference⟩

end

/-- A text is expanded if every ampersand in it begins a reference to a character, and to what it
is with these in their place. -/
theorem expand_eq_ok {text shown : List Char} : expand text = .ok shown ↔ Expands text shown := by
  have expanded {shown : List Char} (expands : Expands text shown) : expand text = .ok shown := by
    have all : expandFrom (size text) 0 [] (text ++ []) = _ := expandFrom_append expands
    rw [List.append_nil] at all
    rw [expand, all, expandFrom, List.append_nil, List.reverse_reverse]
  constructor
  · intro ok
    rcases expands_or_failsAfter (size text) 0 text with ⟨shown', expands⟩ | ⟨fault, fails⟩
    · cases ok.symm.trans (expanded expands)
      exact expands
    · cases ok.symm.trans (expandFrom_of_failsAfter fails)
  · exact expanded

/-- A text is refused for the first ampersand that begins no reference to a character. -/
theorem expand_eq_error {text : List Char} {fault : Fault} :
    expand text = .error fault ↔ FailsAfter (size text) 0 text fault := by
  constructor
  · intro failed
    rcases expands_or_failsAfter (size text) 0 text with ⟨shown, expands⟩ | ⟨fault', fails⟩
    · cases failed.symm.trans (expand_eq_ok.2 expands)
    · cases failed.symm.trans (expandFrom_of_failsAfter fails)
      exact fails
  · exact expandFrom_of_failsAfter

/-! ## Texts for texts -/

/-- A text with references for the two characters that cannot stand for themselves. -/
def escaped (text : List Char) : List Char :=
  text.flatMap fun c => if c = '&' then "&amp;".toList else if c = '<' then "&lt;".toList else [c]

/-- Every text is the expansion of one. -/
theorem expand_escaped (text : List Char) : expand (escaped text) = .ok text := by
  rw [expand_eq_ok]
  induction text with
  | nil => exact .nil
  | cons c rest ih =>
    rw [escaped, List.flatMap_cons]
    split
    · next isAmpersand =>
      subst isAmpersand
      have isName : ∀ c ∈ ['a', 'm', 'p'], isNameChar c = true := by simp [isNameChar]
      exact .reference isName .amp ih
    · next notAmpersand =>
      split
      · next isOpener =>
        subst isOpener
        have isName : ∀ c ∈ ['l', 't'], isNameChar c = true := by simp [isNameChar]
        exact .reference isName .lt ih
      · exact .plain notAmpersand ih

end Markup.Reference

end GraphScribe
