import GraphScribe.Markup.EventAttribute
import GraphScribe.Proofs.Outcome
import GraphScribe.Proofs.Runs

/-!
# Attribute lists

Attribute lists are read in two ways, which differ in two things: whether a form feed is white
space, and whether a key may begin with an equal sign. `Parts` says that one of these matters in a
list; where none does, both readings find the same keys and values, or both find a fault.
-/

namespace GraphScribe.Markup

/-- The byte that is white space in one reading only. -/
def formFeed : UInt8 := 0x0C

theorem isWideSpace_eq {b : UInt8} (other : b ≠ formFeed) : isWideSpace b = isSpace b := by
  unfold isWideSpace
  have apart : (b == 0x0C) = false := beq_false_of_ne other
  rw [apart, Bool.or_false]

theorem isWideSpace_of_isSpace {b : UInt8} (space : isSpace b = true) : isWideSpace b = true := by
  unfold isWideSpace
  rw [space]
  rfl

/-- Where no form feed stands in a run of white space, both notions of it end together. -/
theorem dropWhile_isWideSpace {bytes : Bytes}
    (plain : formFeed ∉ bytes.takeWhile isWideSpace) :
    bytes.dropWhile isWideSpace = bytes.dropWhile isSpace := by
  refine (span_eq (fun _ => isWideSpace_of_isSpace) fun b held => ?_).2.symm
  have other : b ≠ formFeed := fun same => plain (same ▸ held)
  exact (isWideSpace_eq other).symm.trans (List.all_eq_true.1 List.all_takeWhile b held)

namespace AttributeList

/-- The byte is no equal sign. -/
def isUnsigned (b : UInt8) : Bool := b != equals

/-- An attribute at the front of some bytes that the readings take apart differently: its key begins
with an equal sign, or a form feed stands before its equal sign or between that and its value. -/
def Mixed (bytes : Bytes) : Prop :=
  bytes.head? = some equals ∨ formFeed ∈ bytes.takeWhile isUnsigned ∨
    formFeed ∈ ((bytes.dropWhile isUnsigned).drop 1).takeWhile isWideSpace

/-- Some attribute of a list is mixed, after others that both readings take in. -/
inductive Parts : Bytes → Prop where
  | here {bytes : Bytes} : Mixed (bytes.dropWhile isSpace) → Parts bytes
  | later {bytes after : Bytes} {a : Attribute} :
    Attribute.read (bytes.dropWhile isSpace) = .ok (a, after) → Parts after → Parts bytes

/-! ## One attribute -/

theorem isUnsigned_of_isKeyByte {b : UInt8} (key : Attribute.isKeyByte b = true) :
    isUnsigned b = true := by
  refine bne_iff_ne.2 ?_
  rintro rfl
  cases key

theorem isUnsigned_of_isWideSpace {b : UInt8} (wide : isWideSpace b = true) :
    isUnsigned b = true := by
  refine bne_iff_ne.2 ?_
  rintro rfl
  cases wide

theorem isKeyByte_eq {b : UInt8} (other : b ≠ formFeed) :
    Attribute.isKeyByte b = EventAttribute.isKeyByte b := by
  rw [Attribute.isKeyByte, EventAttribute.isKeyByte, isWideSpace_eq other]

/-- Where no form feed stands before the equal sign, both readings end a key alike. -/
theorem span_isKeyByte {bytes : Bytes} (plain : formFeed ∉ bytes.takeWhile isUnsigned) :
    bytes.takeWhile Attribute.isKeyByte = bytes.takeWhile EventAttribute.isKeyByte ∧
      bytes.dropWhile Attribute.isKeyByte = bytes.dropWhile EventAttribute.isKeyByte := by
  have unsigned (b : UInt8) (key : EventAttribute.isKeyByte b = true) : isUnsigned b = true := by
    refine bne_iff_ne.2 ?_
    rintro rfl
    cases key
  refine span_eq (fun b key => ?_) fun b held => ?_
  · have other : b ≠ formFeed := by
      rintro rfl
      cases key
    exact isKeyByte_eq other ▸ key
  · have before := takeWhile_subset_of_imp unsigned bytes b held
    have other : b ≠ formFeed := fun same => plain (same ▸ before)
    exact (isKeyByte_eq other).trans (List.all_eq_true.1 List.all_takeWhile b held)

theorem skipSpace_eq {bytes : Bytes} (plain : formFeed ∉ bytes.takeWhile isUnsigned) :
    Attribute.skipSpace bytes = bytes.dropWhile isSpace :=
  dropWhile_isWideSpace fun held =>
    plain (takeWhile_subset_of_imp (fun _ => isUnsigned_of_isWideSpace) bytes formFeed held)

variable {b : UInt8} {rest : Bytes}

theorem head_ne_formFeed (plain : ¬ Mixed (b :: rest)) : b ≠ formFeed := by
  rintro rfl
  exact plain (.inr (.inl List.mem_cons_self))

/-- Both readings split a key and the white space after it alike. -/
theorem key_eq (dark : isSpace b = false) (plain : ¬ Mixed (b :: rest)) :
    (b :: rest).takeWhile Attribute.isKeyByte = b :: rest.takeWhile EventAttribute.isKeyByte ∧
      Attribute.skipSpace ((b :: rest).dropWhile Attribute.isKeyByte) =
        (rest.dropWhile EventAttribute.isKeyByte).dropWhile isSpace := by
  have unsigned : b ≠ equals := fun same => plain (.inl (congrArg some same))
  have before : formFeed ∉ (b :: rest).takeWhile isUnsigned :=
    fun held => plain (.inr (.inl held))
  have between : formFeed ∉ ((b :: rest).dropWhile Attribute.isKeyByte).takeWhile isUnsigned :=
    before ∘ mem_takeWhile_of_dropWhile fun _ => isUnsigned_of_isKeyByte
  obtain ⟨sameKey, sameRest⟩ := span_isKeyByte before
  have key : EventAttribute.isKeyByte b = true := by
    rw [EventAttribute.isKeyByte, dark, beq_false_of_ne unsigned]
    rfl
  rw [skipSpace_eq between, sameKey, sameRest, List.takeWhile_cons_of_pos key,
    List.dropWhile_cons_of_pos key]
  exact ⟨rfl, rfl⟩

/-- What stands after the first equal sign, where a key and white space lead to it. -/
theorem after_sign {bytes after : Bytes}
    (left : Attribute.skipSpace (bytes.dropWhile Attribute.isKeyByte) = equals :: after) :
    (bytes.dropWhile isUnsigned).drop 1 = after := by
  rw [← dropWhile_of_imp fun _ => isUnsigned_of_isKeyByte,
    ← dropWhile_of_imp fun _ => isUnsigned_of_isWideSpace]
  unfold Attribute.skipSpace at left
  rw [left]
  rfl

/-- Both readings read a value alike. -/
theorem value_alike {after : Bytes} (plain : formFeed ∉ after.takeWhile isWideSpace)
    (length : Nat) :
    Alike (fun _ _ => True) (· = ·) (EventAttribute.readValue length after)
      (Attribute.readValue after) := by
  have skipped : Attribute.skipSpace after = after.dropWhile isSpace := dropWhile_isWideSpace plain
  unfold Attribute.readValue EventAttribute.readValue
  rw [skipped]
  cases after.dropWhile isSpace with
  | nil => trivial
  | cons quote others =>
    dsimp only
    cases isQuote quote with
    | false => trivial
    | true =>
      cases others.dropWhile (· != quote) with
      | nil => trivial
      | cons closing after => rfl

/-! ## Lists -/

theorem dark_of_dropWhile {bytes : Bytes} (left : bytes.dropWhile isSpace = b :: rest) :
    isSpace b = false := by
  have ends := List.head?_dropWhile_not isSpace bytes
  rwa [left] at ends

theorem skipSpace_of_dark {bytes : Bytes} (left : bytes.dropWhile isSpace = b :: rest)
    (other : b ≠ formFeed) : Attribute.skipSpace bytes = b :: rest := by
  have stop : ¬ isWideSpace b = true := by
    rw [isWideSpace_eq other, dark_of_dropWhile left]
    exact Bool.false_ne_true
  unfold Attribute.skipSpace
  rw [← dropWhile_of_imp fun _ => isWideSpace_of_isSpace, left, List.dropWhile_cons_of_neg stop]

theorem events_nil {bytes : Bytes} (nothing : bytes.dropWhile isSpace = []) (length : Nat)
    (done : List EventAttribute) :
    EventAttribute.readAllFrom length done bytes = .ok done.reverse := by
  rw [EventAttribute.readAllFrom]
  split
  · rfl
  · next left => cases nothing.symm.trans left

theorem events_unsigned {bytes : Bytes} (left : bytes.dropWhile isSpace = b :: rest)
    (nothing : (rest.dropWhile EventAttribute.isKeyByte).dropWhile isSpace = []) (length : Nat)
    (done : List EventAttribute) :
    EventAttribute.readAllFrom length done bytes = .error (.noEquals length) := by
  rw [EventAttribute.readAllFrom]
  split
  · next empty => cases empty.symm.trans left
  · next left' =>
    cases left.symm.trans left'
    split
    · rfl
    · next signed => cases nothing.symm.trans signed

theorem events_signed {bytes afterSign : Bytes} {sign : UInt8}
    (left : bytes.dropWhile isSpace = b :: rest)
    (signed : (rest.dropWhile EventAttribute.isKeyByte).dropWhile isSpace = sign :: afterSign)
    (length : Nat) (done : List EventAttribute) :
    EventAttribute.readAllFrom length done bytes =
      if sign != equals then .error (.noEquals (length - (afterSign.length + 1)))
      else
        let position := length - (rest.length + 1)
        let key := b :: rest.takeWhile EventAttribute.isKeyByte
        match done.find? (·.key == key) with
        | some previous => .error (.duplicate position previous.position)
        | none =>
          match EventAttribute.readValue length afterSign with
          | .error fault => .error fault
          | .ok (value, after) =>
            EventAttribute.readAllFrom length (⟨position, key, value⟩ :: done) after := by
  rw [EventAttribute.readAllFrom]
  split
  · next empty => cases empty.symm.trans left
  · next left' =>
    cases left.symm.trans left'
    split
    · next nothing => cases nothing.symm.trans signed
    · next signed' =>
      cases signed.symm.trans signed'
      dsimp only
      split
      · rfl
      · cases done.find? (·.key == b :: rest.takeWhile EventAttribute.isKeyByte) with
        | some previous => rfl
        | none =>
          dsimp only
          cases EventAttribute.readValue length afterSign with
          | error fault => rfl
          | ok placed => rfl

theorem tokens_nil {bytes : Bytes} (nothing : Attribute.skipSpace bytes = [])
    (done : List Attribute) : Attribute.readAllFrom done bytes = .ok done.reverse := by
  rw [Attribute.readAllFrom]
  split
  · rfl
  · next left => cases nothing.symm.trans left

theorem tokens_cons {bytes : Bytes} (left : Attribute.skipSpace bytes = b :: rest)
    (done : List Attribute) :
    Attribute.readAllFrom done bytes =
      match Attribute.read (b :: rest) with
      | .error fault => .error fault
      | .ok (a, after) =>
        if done.any (·.1 == a.1) then .error ⟨a.1, .duplicate⟩
        else Attribute.readAllFrom (a :: done) after := by
  rw [Attribute.readAllFrom]
  split
  · next nothing => cases nothing.symm.trans left
  · next left' =>
    cases left.symm.trans left'
    split
    · next read => rw [read]
    · next read =>
      dsimp only
      rw [read]

/-- An attribute without the place where it stands. -/
def unplaced (a : EventAttribute) : Attribute := (a.key, a.value)

/-- Both readings look for a key among the same keys. -/
theorem any_key (done : List EventAttribute) (key : Bytes) :
    ((done.map unplaced).any (·.1 == key)) = (done.find? (·.key == key)).isSome := by
  induction done with
  | nil => rfl
  | cons a others ih =>
    rw [List.map_cons, List.any_cons, List.find?_cons, ih]
    show (a.key == key || _) = _
    cases a.key == key <;> rfl

/-- The token reading of an attribute that is not mixed and has its sign. -/
theorem read_signed {afterSign : Bytes} (dark : isSpace b = false) (plain : ¬ Mixed (b :: rest))
    (signed : (rest.dropWhile EventAttribute.isKeyByte).dropWhile isSpace = equals :: afterSign) :
    Attribute.read (b :: rest) =
      match Attribute.readValue afterSign with
      | .ok (value, after) => .ok ((b :: rest.takeWhile EventAttribute.isKeyByte, value), after)
      | .error problem => .error ⟨b :: rest.takeWhile EventAttribute.isKeyByte, problem⟩ := by
  obtain ⟨sameKey, sameRest⟩ := key_eq dark plain
  rw [Attribute.read, sameKey, sameRest, signed]
  exact if_pos rfl

/-- With an attribute that is not mixed and has its sign, both readings stop at a fault, or take the
same attribute off the list. -/
theorem stop_or_take {bytes afterSign : Bytes} (left : bytes.dropWhile isSpace = b :: rest)
    (plain : ¬ Mixed (b :: rest))
    (signed : (rest.dropWhile EventAttribute.isKeyByte).dropWhile isSpace = equals :: afterSign)
    (length : Nat) (done : List EventAttribute) :
    ((∃ fault, EventAttribute.readAllFrom length done bytes = .error fault) ∧
        ∃ fault, Attribute.readAllFrom (done.map unplaced) bytes = .error fault) ∨
      ∃ a after, Attribute.read (b :: rest) = .ok (unplaced a, after) ∧
        EventAttribute.readAllFrom length done bytes =
          EventAttribute.readAllFrom length (a :: done) after ∧
        Attribute.readAllFrom (done.map unplaced) bytes =
          Attribute.readAllFrom ((a :: done).map unplaced) after := by
  have other := head_ne_formFeed plain
  obtain ⟨-, sameRest⟩ := key_eq (dark_of_dropWhile left) plain
  have clear : formFeed ∉ afterSign.takeWhile isWideSpace :=
    fun held => plain (.inr (.inr (after_sign (sameRest.trans signed) ▸ held)))
  have values := value_alike clear length
  have unequal : ¬ (equals != equals) = true := fun apart => bne_iff_ne.1 apart rfl
  rw [events_signed left signed, if_neg unequal, tokens_cons (skipSpace_of_dark left other),
    read_signed (dark_of_dropWhile left) plain signed]
  dsimp only
  cases found : EventAttribute.readValue length afterSign with
  | error fault =>
    cases found' : Attribute.readValue afterSign with
    | error problem =>
      refine .inl ⟨?_, ⟨_, rfl⟩⟩
      cases done.find? _ with
      | some previous => exact ⟨_, rfl⟩
      | none => exact ⟨fault, rfl⟩
    | ok placed =>
      rw [found, found'] at values
      exact values.elim
  | ok placed =>
    cases found' : Attribute.readValue afterSign with
    | error problem =>
      rw [found, found'] at values
      exact values.elim
    | ok placed' =>
      rw [found, found'] at values
      obtain rfl : placed = placed' := values
      dsimp only
      rw [any_key]
      cases done.find? _ with
      | some previous => exact .inl ⟨⟨_, rfl⟩, ⟨_, rfl⟩⟩
      | none => exact .inr ⟨⟨_, _, placed.1⟩, placed.2, rfl, rfl, rfl⟩

/-- Where no attribute of a list is mixed, both readings find the same. -/
theorem parts_or_alike (length : Nat) (bytes : Bytes) : ∀ done : List EventAttribute,
    Parts bytes ∨
      Alike (fun _ _ => True) (fun found others => others = found.map unplaced)
        (EventAttribute.readAllFrom length done bytes)
        (Attribute.readAllFrom (done.map unplaced) bytes) := by
  induction size : bytes.length using Nat.strongRecOn generalizing bytes with
  | ind count ih =>
  intro done
  by_cases mixed : Mixed (bytes.dropWhile isSpace)
  · exact .inl (.here mixed)
  cases left : bytes.dropWhile isSpace with
  | nil =>
    have skipped : Attribute.skipSpace bytes = [] := by
      unfold Attribute.skipSpace
      rw [← dropWhile_of_imp fun _ => isWideSpace_of_isSpace, left]
      rfl
    rw [events_nil left, tokens_nil skipped]
    exact .inr List.map_reverse.symm
  | cons b rest =>
    rw [left] at mixed
    have other := head_ne_formFeed mixed
    obtain ⟨sameKey, sameRest⟩ := key_eq (dark_of_dropWhile left) mixed
    cases signed : (rest.dropWhile EventAttribute.isKeyByte).dropWhile isSpace with
    | nil =>
      rw [events_unsigned left signed, tokens_cons (skipSpace_of_dark left other),
        Attribute.read, sameKey, sameRest, signed]
      exact .inr trivial
    | cons sign afterSign =>
      by_cases equal : sign = equals
      · subst equal
        rcases stop_or_take left mixed signed length done with
          ⟨⟨_, events⟩, _, tokens⟩ | ⟨a, after, front, events, tokens⟩
        · rw [events, tokens]
          exact .inr trivial
        · have shorter : after.length < count := by
            have front' := Attribute.read_length front
            have skipped := (List.dropWhile_suffix isSpace (l := bytes)).length_le
            rw [left] at skipped
            omega
          rw [events, tokens]
          rcases ih _ shorter after rfl (a :: done) with later | alike
          · exact .inl (.later (left ▸ front) later)
          · exact .inr alike
      · have unequal : (sign != equals) = true := bne_iff_ne.2 equal
        rw [events_signed left signed, if_pos unequal, tokens_cons (skipSpace_of_dark left other),
          Attribute.read, sameKey, sameRest, signed]
        dsimp only
        rw [if_neg (equal ∘ eq_of_beq)]
        exact .inr trivial

/-- The value of a key is that of the first attribute with it. -/
theorem lookup_unplaced (key : Bytes) (found : List EventAttribute) :
    (found.map unplaced).lookup key = (found.find? (·.key == key)).map (·.value) := by
  induction found with
  | nil => rfl
  | cons a others ih =>
    rw [List.find?_cons, List.map_cons, List.lookup_cons]
    have turned : (key == (unplaced a).1) = (a.key == key) := BEq.comm
    rw [turned]
    cases a.key == key with
    | true => rfl
    | false => exact ih

end AttributeList
end GraphScribe.Markup
