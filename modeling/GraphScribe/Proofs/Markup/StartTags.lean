import GraphScribe.Decode.ElementReader
import GraphScribe.Proofs.Markup.AttributeLists
import GraphScribe.Proofs.Markup.Feed
import GraphScribe.Proofs.Markup.Locality

/-!
# Written start tags

A start tag is taken apart twice: the reader of tokens looks for the `>` behind all quoted values,
and the reader of attributes splits what stands before it. A `WrittenTag` holds all that is written
in a start tag, the white space and the quotes included, and both readings find this again.

* `Scan.PassesOver`: bytes in which no tag ends.
* `WrittenTag.readConstruct_bytes`: the token of a written tag.
* `WrittenAttribute.readAllFrom_append`: the attributes of a written tag, one after the other.
* `WrittenTag.read_back`: what is written is read.
-/

namespace GraphScribe.Markup

/-! ## What is written -/

/-- The byte may stand in a written name: it is no white space and no mark. -/
def isWordByte (b : UInt8) : Bool :=
  !(isWideSpace b || isTagMark b || b == opener || b == equals || b == slash || b == bang ||
    b == question)

/-- A written name. -/
structure Word where
  bytes : Bytes
  filled : bytes ≠ []
  plain : ∀ b ∈ bytes, isWordByte b = true

/-- Any amount of white space. -/
structure Blanks where
  bytes : Bytes
  wide : ∀ b ∈ bytes, isWideSpace b = true

/-- A written attribute, with the white space in front of it. -/
structure WrittenAttribute where
  gap : Blanks
  key : Word
  beforeSign : Blanks
  afterSign : Blanks
  quote : UInt8
  quotes : isQuote quote = true
  value : Bytes
  closes : quote ∉ value

namespace WrittenAttribute

/-- The attribute from its key on. -/
def body (a : WrittenAttribute) : Bytes :=
  a.key.bytes ++ (a.beforeSign.bytes ++
    equals :: (a.afterSign.bytes ++ a.quote :: (a.value ++ [a.quote])))

def bytes (a : WrittenAttribute) : Bytes :=
  a.gap.bytes ++ a.body

/-- What the attribute says. -/
def pair (a : WrittenAttribute) : Attribute :=
  (a.key.bytes, a.value)

end WrittenAttribute

/-- A written start tag. White space stands between its name and its first attribute. -/
structure WrittenTag where
  name : Word
  attributes : List WrittenAttribute
  apart : ∀ a ∈ attributes.head?, a.gap.bytes ≠ []
  gap : Blanks
  isEmpty : Bool

namespace WrittenTag

/-- What stands between the name and the end of the tag. -/
def attributeBytes (t : WrittenTag) : Bytes :=
  t.attributes.flatMap (·.bytes) ++ t.gap.bytes

/-- What stands between the brackets. -/
def content (t : WrittenTag) : Bytes :=
  t.name.bytes ++ t.attributeBytes ++ if t.isEmpty then [slash] else []

def bytes (t : WrittenTag) : Bytes :=
  opener :: (t.content ++ [closer])

end WrittenTag

/-! ## Where a tag ends -/

/-- Inside a value all bytes are passed over up to the quote that closes it. -/
theorem Scan.tagCloser_value {quote : UInt8} {value : Bytes} (closes : quote ∉ value)
    (rest : Bytes) : ∀ offset : Nat,
      tagCloser (some quote) offset (value ++ quote :: rest) =
        tagCloser none (offset + value.length + 1) rest := by
  induction value with
  | nil =>
    intro offset
    rw [List.nil_append, tagCloser, if_pos (beq_self_eq_true quote)]
    rfl
  | cons b others ih =>
    intro offset
    obtain ⟨other, later⟩ := not_or.1 (closes ∘ List.mem_cons.2)
    rw [List.cons_append, tagCloser, if_neg fun same => other (eq_of_beq same).symm, ih later,
      List.length_cons, Nat.add_right_comm offset 1, Nat.add_assoc offset]

/-- No tag ends in the bytes, and no quote is open behind them. -/
def Scan.PassesOver (bytes : Bytes) : Prop :=
  ∀ (offset : Nat) (rest : Bytes),
    tagCloser none offset (bytes ++ rest) = tagCloser none (offset + bytes.length) rest

namespace Scan.PassesOver

theorem nil : PassesOver [] :=
  fun _ _ => rfl

theorem append {first second : Bytes} (passes : PassesOver first) (passes' : PassesOver second) :
    PassesOver (first ++ second) := by
  intro offset rest
  rw [List.append_assoc, passes, passes', List.length_append, Nat.add_assoc]

theorem of_plain {bytes : Bytes} (plain : ∀ b ∈ bytes, isTagMark b = false) :
    PassesOver bytes := by
  induction bytes with
  | nil => exact nil
  | cons b rest ih =>
    obtain ⟨unclosed, unquoted⟩ := Bool.or_eq_false_iff.1 (plain b List.mem_cons_self)
    have first : PassesOver [b] := by
      intro offset rest
      rw [List.singleton_append, tagCloser, if_neg (Bool.eq_false_iff.1 unclosed), unquoted]
      rfl
    exact first.append (ih fun b held => plain b (List.mem_cons_of_mem _ held))

/-- A value with its quotes may hold any other bytes. -/
theorem quoted {quote : UInt8} {value : Bytes} (quotes : isQuote quote = true)
    (closes : quote ∉ value) : PassesOver (quote :: (value ++ [quote])) := by
  intro offset rest
  have apart : ¬ (quote == closer) = true := by
    intro same
    cases eq_of_beq same
    cases quotes
  rw [List.cons_append, tagCloser, if_neg apart, if_pos quotes, List.append_assoc,
    List.singleton_append, tagCloser_value closes, List.length_cons, List.length_append,
    List.length_singleton]
  congr 1
  omega

end Scan.PassesOver

theorem isWordByte_iff {b : UInt8} :
    isWordByte b = true ↔ isWideSpace b = false ∧ isTagMark b = false ∧ b ≠ opener ∧ b ≠ equals ∧
      b ≠ slash ∧ b ≠ bang ∧ b ≠ question := by
  simp [isWordByte, and_assoc]

theorem isTagMark_of_isWideSpace {b : UInt8} (wide : isWideSpace b = true) :
    isTagMark b = false := by
  simp only [isWideSpace, isSpace, Bool.or_eq_true, beq_iff_eq] at wide
  rcases wide with (((rfl | rfl) | rfl) | rfl) | rfl <;> rfl

theorem Word.passesOver (word : Word) : Scan.PassesOver word.bytes :=
  .of_plain fun b held => (isWordByte_iff.1 (word.plain b held)).2.1

theorem Blanks.passesOver (blanks : Blanks) : Scan.PassesOver blanks.bytes :=
  .of_plain fun b held => isTagMark_of_isWideSpace (blanks.wide b held)

theorem WrittenAttribute.passesOver (a : WrittenAttribute) : Scan.PassesOver a.bytes := by
  have sign : Scan.PassesOver [equals] := .of_plain fun b held => List.mem_singleton.1 held ▸ rfl
  have value := Scan.PassesOver.quoted a.quotes a.closes
  exact a.gap.passesOver.append (a.key.passesOver.append
    (a.beforeSign.passesOver.append (sign.append (a.afterSign.passesOver.append value))))

/-! ## The token -/

theorem getLast?_append_ne {first second : Bytes} {b : UInt8} (other : first.getLast? ≠ some b)
    (other' : second.getLast? ≠ some b) : (first ++ second).getLast? ≠ some b := by
  rw [List.getLast?_append]
  cases last : second.getLast? with
  | none => exact other
  | some b' =>
    rw [last] at other'
    exact other'

/-- No part of a tag ends with a slash, which would make the element empty. -/
theorem Word.getLast?_ne (word : Word) : word.bytes.getLast? ≠ some slash := by
  intro last
  obtain ⟨-, -, -, -, other, -⟩ := isWordByte_iff.1 (word.plain _ (List.mem_of_getLast? last))
  exact other rfl

theorem Blanks.getLast?_ne (blanks : Blanks) : blanks.bytes.getLast? ≠ some slash := by
  intro last
  cases blanks.wide _ (List.mem_of_getLast? last)

theorem WrittenAttribute.getLast?_ne (a : WrittenAttribute) :
    a.bytes.getLast? ≠ some slash := by
  have quoted : a.bytes = a.gap.bytes ++ (a.key.bytes ++ (a.beforeSign.bytes ++
      equals :: (a.afterSign.bytes ++ a.quote :: a.value))) ++ [a.quote] := by
    simp only [WrittenAttribute.bytes, WrittenAttribute.body, List.append_assoc, List.cons_append]
  rw [quoted, List.getLast?_concat]
  intro same
  have quotes := a.quotes
  rw [Option.some.inj same] at quotes
  cases quotes

namespace WrittenTag

variable (t : WrittenTag)

theorem attributes_passOver {attributes : List WrittenAttribute} :
    Scan.PassesOver (attributes.flatMap (·.bytes)) := by
  induction attributes with
  | nil => exact .nil
  | cons a others ih => exact a.passesOver.append ih

theorem attributes_getLast?_ne {attributes : List WrittenAttribute} :
    (attributes.flatMap (·.bytes)).getLast? ≠ some slash := by
  induction attributes with
  | nil => exact (nomatch ·)
  | cons a others ih => exact getLast?_append_ne a.getLast?_ne ih

theorem content_passesOver : Scan.PassesOver t.content := by
  have slashed : Scan.PassesOver (if t.isEmpty then [slash] else []) := by
    cases t.isEmpty with
    | true => exact .of_plain fun b held => List.mem_singleton.1 held ▸ rfl
    | false => exact .nil
  exact (t.name.passesOver.append (attributes_passOver.append t.gap.passesOver)).append slashed

/-- The attributes begin with white space. -/
theorem attributeBytes_wide : ∀ b ∈ t.attributeBytes.head?, isWideSpace b = true := by
  obtain ⟨name, attributes, apart, gap, isEmpty⟩ := t
  intro b first
  cases attributes with
  | nil => exact gap.wide b (List.mem_of_head? first)
  | cons a others =>
    cases wide : a.gap.bytes with
    | nil => exact absurd wide (apart a rfl)
    | cons b' rest =>
      rw [attributeBytes, List.flatMap_cons, WrittenAttribute.bytes, wide] at first
      obtain rfl : b' = b := Option.some.inj first
      exact a.gap.wide b' (wide ▸ List.mem_cons_self)

theorem startToken_content :
    startToken t.content = .start t.name.bytes t.attributeBytes t.isEmpty := by
  have parts := @span_append _ (fun b => !isWideSpace b) t.name.bytes t.attributeBytes
    (fun b held => by rw [(isWordByte_iff.1 (t.name.plain b held)).1]; rfl)
    (fun b first => by rw [t.attributeBytes_wide b first]; rfl)
  unfold startToken content
  cases t.isEmpty with
  | true =>
    have slashed : (some slash == some slash) = true := rfl
    rw [if_pos rfl, List.getLast?_concat, List.dropLast_concat]
    dsimp only
    rw [slashed, if_pos rfl, parts.1, parts.2]
  | false =>
    have unslashed : (t.name.bytes ++ t.attributeBytes).getLast? ≠ some slash :=
      getLast?_append_ne t.name.getLast?_ne
        (getLast?_append_ne attributes_getLast?_ne t.gap.getLast?_ne)
    rw [if_neg Bool.false_ne_true, List.append_nil]
    dsimp only
    rw [beq_false_of_ne unslashed, if_neg Bool.false_ne_true, parts.1, parts.2]

/-- The tag stands at the front of the bytes, whatever follows it. -/
theorem readConstruct_bytes (more : Bytes) :
    readConstruct (t.bytes ++ more) =
      .ok (.token (.start t.name.bytes t.attributeBytes t.isEmpty), t.bytes.length) := by
  have ends : tagEnd (t.bytes ++ more) = some (1 + t.content.length) := by
    have front : (t.bytes ++ more).drop 1 = t.content ++ closer :: more := by
      rw [bytes, List.cons_append, List.drop_one, List.tail_cons, List.append_assoc,
        List.singleton_append]
    rw [tagEnd, front, tagEndFrom_eq, t.content_passesOver]
    rfl
  have inside : ((t.bytes ++ more).take (1 + t.content.length)).drop 1 = t.content := by
    rw [bytes, List.cons_append, List.append_assoc, Nat.add_comm, List.take_succ_cons,
      List.take_left, List.drop_one, List.tail_cons]
  have length : 1 + t.content.length + 1 = t.bytes.length := by
    rw [bytes, List.length_cons, List.length_append, List.length_singleton]
    omega
  have start : readStartTag (t.bytes ++ more) =
      .ok (.token (.start t.name.bytes t.attributeBytes t.isEmpty), t.bytes.length) := by
    rw [readStartTag, ends]
    dsimp only
    rw [inside, t.startToken_content, length]
  -- The first byte of the name tells the tag from all other constructs.
  obtain ⟨b, others, named⟩ := List.exists_cons_of_ne_nil t.name.filled
  obtain ⟨-, -, -, -, noEnd, noDeclaration, noInstruction⟩ :=
    isWordByte_iff.1 (t.name.plain b (named ▸ List.mem_cons_self))
  obtain ⟨rest, second⟩ : ∃ rest, t.bytes ++ more = opener :: b :: rest := by
    rw [bytes, content, named]
    exact ⟨_, rfl⟩
  rw [← start, second, readConstruct_markup, readMarkup, if_neg (noEnd ∘ eq_of_beq),
    if_neg (noDeclaration ∘ eq_of_beq), if_neg (noInstruction ∘ eq_of_beq)]

end WrittenTag

/-! ## The attributes -/

theorem Blanks.skipSpace_append (blanks : Blanks) {rest : Bytes}
    (stop : ∀ b ∈ rest.head?, isWideSpace b = false) :
    Attribute.skipSpace (blanks.bytes ++ rest) = rest :=
  (span_append blanks.wide stop).2

theorem isWideSpace_of_isQuote {b : UInt8} (quotes : isQuote b = true) :
    isWideSpace b = false := by
  simp only [isQuote, Bool.or_eq_true, beq_iff_eq] at quotes
  rcases quotes with rfl | rfl <;> rfl

/-- A key ends at an equal sign or at white space before one. -/
theorem Blanks.sign_stops (blanks : Blanks) (rest : Bytes) :
    ∀ b ∈ (blanks.bytes ++ equals :: rest).head?, Attribute.isKeyByte b = false := by
  intro b first
  cases wide : blanks.bytes with
  | nil =>
    rw [wide] at first
    cases first
    rfl
  | cons b' others =>
    rw [wide] at first
    obtain rfl : b' = b := Option.some.inj first
    rw [Attribute.isKeyByte, blanks.wide b' (wide ▸ List.mem_cons_self), Bool.or_true]
    rfl

namespace WrittenAttribute

variable (a : WrittenAttribute)

theorem readValue_append (rest : Bytes) :
    Attribute.readValue (a.afterSign.bytes ++ a.quote :: (a.value ++ a.quote :: rest)) =
      .ok (a.value, rest) := by
  have skipped :
      Attribute.skipSpace (a.afterSign.bytes ++ a.quote :: (a.value ++ a.quote :: rest)) =
        a.quote :: (a.value ++ a.quote :: rest) := by
    refine a.afterSign.skipSpace_append fun b first => ?_
    cases first
    exact isWideSpace_of_isQuote a.quotes
  have parts := @span_append _ (· != a.quote) a.value (a.quote :: rest)
    (fun b held => bne_iff_ne.2 fun same => a.closes (same ▸ held))
    (fun b first => by
      cases first
      exact bne_self_eq_false a.quote)
  unfold Attribute.readValue
  rw [skipped]
  dsimp only
  rw [if_pos a.quotes, parts.1, parts.2]

theorem read_append (rest : Bytes) : Attribute.read (a.body ++ rest) = .ok (a.pair, rest) := by
  have whole : a.body ++ rest = a.key.bytes ++ (a.beforeSign.bytes ++
      equals :: (a.afterSign.bytes ++ a.quote :: (a.value ++ a.quote :: rest))) := by
    simp only [body, List.append_assoc, List.cons_append, List.nil_append]
  have key (b : UInt8) (held : b ∈ a.key.bytes) : Attribute.isKeyByte b = true := by
    obtain ⟨narrow, -, -, unsigned, -⟩ := isWordByte_iff.1 (a.key.plain b held)
    rw [Attribute.isKeyByte, narrow, beq_false_of_ne unsigned]
    rfl
  have parts := span_append key (a.beforeSign.sign_stops
    (a.afterSign.bytes ++ a.quote :: (a.value ++ a.quote :: rest)))
  have sign : Attribute.skipSpace (a.beforeSign.bytes ++
      equals :: (a.afterSign.bytes ++ a.quote :: (a.value ++ a.quote :: rest))) =
        equals :: (a.afterSign.bytes ++ a.quote :: (a.value ++ a.quote :: rest)) := by
    refine a.beforeSign.skipSpace_append fun b first => ?_
    cases first
    rfl
  unfold Attribute.read
  rw [whole, parts.1, parts.2, sign]
  dsimp only
  rw [if_pos (beq_self_eq_true equals), a.readValue_append]
  rfl

theorem readAllFrom_cons (done : List Attribute) (rest : Bytes) :
    Attribute.readAllFrom done (a.bytes ++ rest) =
      if done.any (·.1 == a.key.bytes) then .error ⟨a.key.bytes, .duplicate⟩
      else Attribute.readAllFrom (a.pair :: done) rest := by
  obtain ⟨b, others, named⟩ := List.exists_cons_of_ne_nil a.key.filled
  obtain ⟨narrow, -⟩ := isWordByte_iff.1 (a.key.plain b (named ▸ List.mem_cons_self))
  obtain ⟨tail, front⟩ : ∃ tail, a.body ++ rest = b :: tail := by
    rw [body, named]
    exact ⟨_, rfl⟩
  have skipped : Attribute.skipSpace (a.bytes ++ rest) = b :: tail := by
    rw [bytes, List.append_assoc, front]
    refine a.gap.skipSpace_append fun b' first => ?_
    cases first
    exact narrow
  rw [AttributeList.tokens_cons skipped, ← front, a.read_append]
  rfl

/-- Attributes with different keys are taken in one after the other. -/
theorem readAllFrom_append {attributes : List WrittenAttribute} : ∀ {done : List Attribute},
    (done.reverse.map (·.1) ++ attributes.map (·.key.bytes)).Nodup → ∀ rest : Bytes,
      Attribute.readAllFrom done (attributes.flatMap (·.bytes) ++ rest) =
        Attribute.readAllFrom ((attributes.map pair).reverse ++ done) rest := by
  induction attributes with
  | nil => exact fun _ _ => rfl
  | cons a others ih =>
    intro done distinct rest
    have fresh : ¬ done.any (·.1 == a.key.bytes) = true := by
      intro known
      obtain ⟨former, held, same⟩ := List.any_eq_true.1 known
      have before : a.key.bytes ∈ done.reverse.map (·.1) :=
        List.mem_map.2 ⟨former, List.mem_reverse.2 held, eq_of_beq same⟩
      exact (List.nodup_append.1 distinct).2.2 _ before _ List.mem_cons_self rfl
    have distinct' : ((a.pair :: done).reverse.map (·.1) ++ others.map (·.key.bytes)).Nodup := by
      rw [List.reverse_cons, List.map_append, List.append_assoc]
      exact distinct
    rw [List.flatMap_cons, List.append_assoc, readAllFrom_cons, if_neg fresh, ih distinct',
      List.map_cons, List.reverse_cons, List.append_assoc]
    rfl

/-- Where keys recur behind attributes with different keys, one of them is the first that does. -/
theorem exists_first_recurrence {later : List WrittenAttribute} :
    ∀ {front : List WrittenAttribute}, (front.map (·.key.bytes)).Nodup →
      ¬ ((front ++ later).map (·.key.bytes)).Nodup →
      ∃ before a after, front ++ later = before ++ a :: after ∧
        (before.map (·.key.bytes)).Nodup ∧ a.key.bytes ∈ before.map (·.key.bytes) := by
  induction later with
  | nil =>
    intro front distinct recurs
    rw [List.append_nil] at recurs
    exact absurd distinct recurs
  | cons a others ih =>
    intro front distinct recurs
    by_cases known : a.key.bytes ∈ front.map (·.key.bytes)
    · exact ⟨front, a, others, rfl, distinct, known⟩
    · -- With a key that is new, the attributes in front are one more.
      have distinct' : ((front ++ [a]).map (·.key.bytes)).Nodup := by
        rw [List.map_append]
        refine List.nodup_append.2 ⟨distinct, List.nodup_cons.2 ⟨List.not_mem_nil, List.nodup_nil⟩,
          fun key held key' single same => known ?_⟩
        rwa [same, List.mem_singleton.1 single] at held
      have whole : front ++ a :: others = front ++ [a] ++ others := by
        rw [List.append_assoc, List.singleton_append]
      rw [whole] at recurs ⊢
      exact ih distinct' recurs

end WrittenAttribute

namespace WrittenTag

variable (t : WrittenTag)

/-- The keys of all attributes. -/
def keys : List Bytes :=
  t.attributes.map (·.key.bytes)

theorem readAll_distinct (distinct : t.keys.Nodup) :
    Attribute.readAll t.attributeBytes = .ok (t.attributes.map (·.pair)) := by
  have nothing : Attribute.skipSpace t.gap.bytes = [] := by
    have skipped := @Blanks.skipSpace_append t.gap [] fun _ => (nomatch ·)
    rwa [List.append_nil] at skipped
  have read := @WrittenAttribute.readAllFrom_append t.attributes [] distinct t.gap.bytes
  rw [Attribute.readAll, attributeBytes, read, List.append_nil, AttributeList.tokens_nil nothing,
    List.reverse_reverse]

theorem readAll_recurrence {before after : List WrittenAttribute} {a : WrittenAttribute}
    (parts : t.attributes = before ++ a :: after)
    (distinct : (before.map (·.key.bytes)).Nodup) (known : a.key.bytes ∈ before.map (·.key.bytes)) :
    Attribute.readAll t.attributeBytes = .error ⟨a.key.bytes, .duplicate⟩ := by
  obtain ⟨former, held, same⟩ := List.mem_map.1 known
  have met : ((before.map (·.pair)).reverse).any (·.1 == a.key.bytes) = true :=
    List.any_eq_true.2 ⟨former.pair, List.mem_reverse.2 (List.mem_map_of_mem held),
      beq_iff_eq.2 same⟩
  have read := @WrittenAttribute.readAllFrom_append before [] distinct
  rw [Attribute.readAll, attributeBytes, parts, List.flatMap_append, List.append_assoc, read,
    List.append_nil, List.flatMap_cons, List.append_assoc, WrittenAttribute.readAllFrom_cons]
  exact if_pos met

/-- A written tag is read to its end, whatever follows, as the start of an element with its name.
Its attributes are found in order with their values byte for byte if no key recurs; otherwise the
first key that does is at fault. -/
theorem read_back (more : Bytes) (position : Nat) (openNames : List Bytes) (sawRoot : Bool) :
    ElementReader.nextToken ⟨⟨t.bytes ++ more, position⟩, openNames, sawRoot⟩ =
      (.ok (some (.start t.name.bytes t.attributeBytes t.isEmpty)),
        ⟨⟨more, position + t.bytes.length⟩, openNames, sawRoot⟩) ∧
    (t.keys.Nodup →
      Attribute.readAll t.attributeBytes = .ok (t.attributes.map fun a => (a.key.bytes, a.value))) ∧
    (¬ t.keys.Nodup → ∃ before a after, t.attributes = before ++ a :: after ∧
      (before.map (·.key.bytes)).Nodup ∧ a.key.bytes ∈ before.map (·.key.bytes) ∧
      Attribute.readAll t.attributeBytes = .error ⟨a.key.bytes, .duplicate⟩) := by
  refine ⟨?_, t.readAll_distinct, fun recurs => ?_⟩
  · obtain ⟨rest, front⟩ : ∃ rest, t.bytes ++ more = opener :: rest := ⟨_, rfl⟩
    have read := Cursor.next_of_token (c := ⟨t.bytes ++ more, position⟩) front
      (front ▸ t.readConstruct_bytes more)
    have left : (t.bytes ++ more).drop t.bytes.length = more := List.drop_left
    rw [ElementReader.nextToken, read, Cursor.advance]
    dsimp only
    rw [left]
  · obtain ⟨before, a, after, parts, distinct, known⟩ :=
      @WrittenAttribute.exists_first_recurrence t.attributes [] List.nodup_nil recurs
    exact ⟨before, a, after, parts, distinct, known, t.readAll_recurrence parts distinct known⟩

/-- A value may hold what ends a tag, and the other quote. Written once, its key is found with it;
written twice, the key is at fault. -/
theorem read_back_quoted :
    let none : Blanks := ⟨[], fun _ => (nomatch ·)⟩
    let space : Blanks := ⟨[0x20], fun _ held => List.mem_singleton.1 held ▸ rfl⟩
    let key : Word := ⟨Bytes.ofAscii "label", by decide, List.all_eq_true.1 rfl⟩
    let label : WrittenAttribute :=
      ⟨space, key, none, space, 0x22, rfl, Bytes.ofAscii "a='b'/>", by decide⟩
    let name : Word := ⟨Bytes.ofAscii "edge", by decide, List.all_eq_true.1 rfl⟩
    let once : WrittenTag := ⟨name, [label], by decide, space, true⟩
    let twice : WrittenTag := ⟨name, [label, label], by decide, none, false⟩
    once.bytes = Bytes.ofAscii "<edge label= \"a='b'/>\" />" ∧
      (once.keys.Nodup ∧
        Attribute.readAll once.attributeBytes =
          .ok [(Bytes.ofAscii "label", Bytes.ofAscii "a='b'/>")]) ∧
      ¬ twice.keys.Nodup ∧
        Attribute.readAll twice.attributeBytes = .error ⟨Bytes.ofAscii "label", .duplicate⟩ := by
  intro none space key label name once twice
  have distinct : once.keys.Nodup := by decide
  have recurs : ¬ twice.keys.Nodup := by decide
  refine ⟨by decide, ⟨distinct, (read_back once [] 0 [] false).2.1 distinct⟩, recurs, ?_⟩
  obtain ⟨before, a, after, parts, -, -, read⟩ := (read_back twice [] 0 [] false).2.2 recurs
  have same : a = label := by
    have held : a ∈ twice.attributes := by
      rw [parts]
      exact List.mem_append_right before List.mem_cons_self
    rcases List.mem_cons.1 held with same | held
    · exact same
    · exact List.mem_singleton.1 held
  rwa [same] at read

end WrittenTag

end GraphScribe.Markup
