import GraphScribe.Proofs.Decode.Tags
import GraphScribe.Proofs.Markup.Ends

/-!
# Where readings part

The bytes of a document are read as tokens by one decoder and as events by the other. At most places
the two find the same construct, with the same content and the same length; `Parting` lists the
places where they do not, and `corresponds_or_parting` says that the list is complete.
-/

namespace GraphScribe

open Markup

/-- Why tokens and events part at a place. -/
inductive PartingCause where
  /-- A form feed in the name of a start tag is part of the name in one reading and ends it in the
  other, and an element stays open or is looked for under the shorter name. -/
  | name
  /-- The attribute that matters of a node or edge means something else, or only one reading finds a
  fault in the attribute list. -/
  | value
  /-- A `>` stands inside quotes in an end tag. -/
  | quote
  /-- White space after the name in an end tag belongs to the name in one reading. -/
  | blank
  /-- What begins like a verbatim section is none. -/
  | verbatim
  /-- What begins like a comment is none. -/
  | comment
  /-- What begins like a document type declaration is none. -/
  | declaration
  /-- A document type declaration names no type. -/
  | unnamed
  /-- The question mark that opens an instruction also closes it in one reading. -/
  | instruction
deriving DecidableEq, Repr

/-- Tokens and events part at a place where the elements `openNames` are open (the innermost
first). -/
inductive Parting (openNames : List Bytes) : PartingCause → Bytes → Prop where
  | name {bytes : Bytes} {isEmpty : Bool} {tag : Tag} {n : Nat} :
    Scan.ofBytes bytes = .event (.ofTag isEmpty tag) n →
    readConstruct bytes =
      .ok (.token (.start tag.shortName (tag.content.drop tag.shortName.length) isEmpty), n) →
    formFeed ∈ tag.name → (isEmpty = true → IsSought openNames.length tag.shortName) →
    Parting openNames .name bytes
  | value {bytes : Bytes} {isEmpty : Bool} {tag : Tag} {n : Nat} {kind : ElementKind} :
    Scan.ofBytes bytes = .event (.ofTag isEmpty tag) n →
    readConstruct bytes =
      .ok (.token (.start tag.name (tag.content.drop tag.nameLength) isEmpty), n) →
    openNames.length = 1 → Walker.kindOf? tag.name = some kind →
    AttributeList.Parts (tag.content.drop tag.nameLength) → ¬ tag.SameKey kind →
    Parting openNames .value bytes
  | quote {content rest : Bytes} :
    closer ∉ content → openQuote none content ≠ none →
    Parting openNames .quote (Bytes.ofAscii "</" ++ (content ++ closer :: rest))
  | blank {name space rest : Bytes} :
    openNames.head? = some name → closer ∉ name ++ space → openQuote none (name ++ space) = none →
    (∀ b ∈ space, isWideSpace b = true) → (formFeed ∈ space ∨ name = [] ∧ space ≠ []) →
    Parting openNames .blank (Bytes.ofAscii "</" ++ (name ++ space ++ closer :: rest))
  | verbatim {rest : Bytes} :
    (Bytes.ofAscii "CDATA[").isPrefixOf rest = false →
    Parting openNames .verbatim (Bytes.ofAscii "<![" ++ rest)
  | comment {rest : Bytes} :
    (Bytes.ofAscii "-").isPrefixOf rest = false →
    Parting openNames .comment (Bytes.ofAscii "<!-" ++ rest)
  | declaration {b : UInt8} {rest : Bytes} :
    b = 0x44 ∨ b = 0x64 → Bytes.sameLetters (b :: rest.take 6) (Bytes.ofAscii "DOCTYPE") = false →
    Parting openNames .declaration (Bytes.ofAscii "<!" ++ b :: rest)
  | unnamed {rest : Bytes} {i : Nat} :
    Bytes.sameLetters (rest.take 7) (Bytes.ofAscii "DOCTYPE") = true →
    declarationEnd (Bytes.ofAscii "<!" ++ rest) = some (i + 2) →
    ((rest.take i).drop 7).all isSpace = true →
    Parting openNames .unnamed (Bytes.ofAscii "<!" ++ rest)
  | instruction {rest : Bytes} {n : Nat} :
    closedBy "?>" 2 (Bytes.ofAscii "<?>" ++ rest) = some n →
    Parting openNames .instruction (Bytes.ofAscii "<?>" ++ rest)

/-- Tokens and events find the same at a place: the same construct, or the same fault. -/
inductive Corresponds (openNames : List Bytes) (bytes : Bytes) : Prop where
  | silent {n : Nat} :
    Scan.ofBytes bytes = .event .other n → readConstruct bytes = .ok (.silent, n) →
    Corresponds openNames bytes
  | text {raw : Bytes} {n : Nat} :
    Scan.ofBytes bytes = .event (.text raw) n →
    readConstruct bytes = .ok (.token (.piece (.text raw)), n) → Corresponds openNames bytes
  | tail :
    Scan.ofBytes bytes = .tail bytes →
    readConstruct bytes = .ok (.token (.piece (.text bytes)), bytes.length) →
    Corresponds openNames bytes
  | verbatim {raw : Bytes} {n : Nat} :
    Scan.ofBytes bytes = .event (.verbatim raw) n →
    readConstruct bytes = .ok (.token (.piece (.verbatim raw)), n) → Corresponds openNames bytes
  | start {isEmpty : Bool} {tag : Tag} {n : Nat} :
    Scan.ofBytes bytes = .event (.ofTag isEmpty tag) n →
    readConstruct bytes =
      .ok (.token (.start tag.name (tag.content.drop tag.nameLength) isEmpty), n) →
    (∀ b ∈ tag.name, isWideSpace b = false) →
    (∀ kind, openNames.length = 1 → Walker.kindOf? tag.name = some kind → tag.SameKey kind) →
    Corresponds openNames bytes
  | passed {tag : Tag} {n : Nat} :
    Scan.ofBytes bytes = .event (.empty tag) n →
    readConstruct bytes =
      .ok (.token (.start tag.shortName (tag.content.drop tag.shortName.length) true), n) →
    formFeed ∈ tag.name → ¬ IsSought openNames.length tag.shortName → Corresponds openNames bytes
  | finish {name name' : Bytes} {n : Nat} :
    Scan.ofBytes bytes = .event (.finish name) n →
    readConstruct bytes = .ok (.token (.finish name'), n) →
    (openNames.head? = some name ↔ openNames.head? = some name') →
    Corresponds openNames bytes
  | unclosed :
    Scan.ofBytes bytes = .ended .unclosed ∨ Scan.ofBytes bytes = .fault .unclosed →
    readConstruct bytes = .error .unclosed → Corresponds openNames bytes
  | unknown :
    Scan.ofBytes bytes = .ended .unknownSymbol ∨ Scan.ofBytes bytes = .fault .unknownSymbol →
    readConstruct bytes = .error .unknownDeclaration → Corresponds openNames bytes

variable {openNames : List Bytes}

/-! ## Texts and start tags -/

theorem corresponds_text {b : UInt8} {rest : Bytes} (other : b ≠ opener) :
    Corresponds openNames (b :: rest) := by
  have text : ¬ (some b == some opener) = true := fun same => other (Option.some.inj (eq_of_beq same))
  have tokens : readConstruct (b :: rest) = .ok (readText (b :: rest)) := if_neg text
  have events : Scan.ofBytes (b :: rest) = Scan.ofText (b :: rest) := if_neg text
  cases left : (b :: rest).dropWhile (· != opener) with
  | nil =>
    have whole : (b :: rest).takeWhile (· != opener) = b :: rest := by
      have parts := List.takeWhile_append_dropWhile (p := (· != opener)) (l := b :: rest)
      rwa [left, List.append_nil] at parts
    refine .tail ?_ ?_
    · rw [events, Scan.ofText, left]
      exact congrArg Scan.tail whole
    · rw [tokens, readText, whole]
  | cons next others =>
    refine .text (events.trans ?_) tokens
    rw [Scan.ofText, left]

/-- Both readings find the same start tag, unless its name or its attributes part them. -/
theorem corresponds_or_parting_start {bytes : Bytes}
    (events : Scan.ofBytes bytes = Scan.ofStartTag bytes)
    (tokens : readConstruct bytes = readStartTag bytes) :
    Corresponds openNames bytes ∨ ∃ cause, Parting openNames cause bytes := by
  have tagEnd_eq : tagEnd bytes = Scan.tagCloser none 1 (bytes.drop 1) :=
    tagEndFrom_eq (bytes.drop 1) 1
  rw [readStartTag, tagEnd_eq] at tokens
  cases closed : Scan.tagCloser none 1 (bytes.drop 1) with
  | none =>
    rw [Scan.ofStartTag, closed] at events
    rw [closed] at tokens
    exact .inl (.unclosed (.inl events) tokens)
  | some i =>
    rw [ofStartTag_eq closed] at events
    rw [closed] at tokens
    dsimp only at tokens
    rw [startToken_eq] at tokens
    by_cases fed : formFeed ∈ (tagBetween ((bytes.take i).drop 1)).name
    · cases isEmpty : ((bytes.take i).drop 1).getLast? == some slash with
      | false =>
        rw [isEmpty] at events tokens
        exact .inr ⟨.name, .name events tokens fed fun empty => absurd empty Bool.false_ne_true⟩
      | true =>
        rw [isEmpty] at events tokens
        by_cases sought : IsSought openNames.length (tagBetween ((bytes.take i).drop 1)).shortName
        · exact .inr ⟨.name, .name events tokens fed fun _ => sought⟩
        · exact .inl (.passed events tokens fed sought)
    · have clean := isWideSpace_of_name fed
      obtain ⟨name, attributes⟩ := shortName_eq clean
      rw [attributes, name] at tokens
      generalize tagBetween ((bytes.take i).drop 1) = tag at *
      by_cases same : ∀ kind, openNames.length = 1 → Walker.kindOf? tag.name = some kind →
          tag.SameKey kind
      · exact .inl (.start events tokens clean same)
      · obtain ⟨kind, same⟩ := Classical.not_forall.1 same
        obtain ⟨member, same⟩ := Classical.not_imp.1 same
        obtain ⟨named, differ⟩ := Classical.not_imp.1 same
        have parts := (parts_or_sameKey tag kind).resolve_right differ
        exact .inr ⟨.value, .value events tokens member named parts differ⟩

/-! ## End tags -/

/-- What is cut off the end of some bytes. -/
theorem exists_trimEndWhere (test : UInt8 → Bool) (bytes : Bytes) :
    ∃ space, bytes = Bytes.trimEndWhere test bytes ++ space ∧ ∀ b ∈ space, test b = true := by
  refine ⟨(bytes.reverse.takeWhile test).reverse, ?_, fun b held => ?_⟩
  · unfold Bytes.trimEndWhere
    rw [← List.reverse_append, List.takeWhile_append_dropWhile, List.reverse_reverse]
  · exact List.all_eq_true.1 List.all_takeWhile b (List.mem_reverse.1 held)

/-- Cutting off stops at bytes that do not pass. -/
theorem trimEndWhere_append {test : UInt8 → Bool} {name space : Bytes}
    (clean : ∀ b ∈ name, test b = false) (passing : ∀ b ∈ space, test b = true) :
    Bytes.trimEndWhere test (name ++ space) = name := by
  have stays : name.reverse.dropWhile test = name.reverse := by
    cases left : name.reverse with
    | nil => rfl
    | cons b others =>
      have held : b ∈ name := List.mem_reverse.1 (left ▸ List.mem_cons_self)
      exact List.dropWhile_cons_of_neg (clean b held ▸ Bool.false_ne_true)
  unfold Bytes.trimEndWhere
  rw [List.reverse_append, List.dropWhile_append_of_pos, stays, List.reverse_reverse]
  exact fun b held => passing b (List.mem_reverse.1 held)

/-- An end tag that bears a name in the reading of events bears it in the reading of tokens. -/
theorem trimEndWhere_of_endName {content name : Bytes}
    (clean : ∀ b ∈ name, isWideSpace b = false) (named : Scan.endName content = name) :
    Bytes.trimEndWhere isWideSpace content = name := by
  obtain ⟨space, parts, passing⟩ := exists_trimEndWhere isSpace content
  unfold Scan.endName at named
  dsimp only at named
  split at named
  · have whole := trimEndWhere_append clean (List.forall_mem_nil (isWideSpace · = true))
    rw [List.append_nil] at whole
    rw [named]
    exact whole
  · rw [named] at parts
    rw [parts]
    exact trimEndWhere_append clean fun b held => isWideSpace_of_isSpace (passing b held)

/-- The converse holds unless a form feed follows the name, or white space follows no name. -/
theorem endName_of_trimEndWhere {content name : Bytes}
    (clean : ∀ b ∈ name, isWideSpace b = false)
    (named : Bytes.trimEndWhere isWideSpace content = name) :
    Scan.endName content = name ∨
      ∃ space, content = name ++ space ∧ (∀ b ∈ space, isWideSpace b = true) ∧
        (formFeed ∈ space ∨ name = [] ∧ space ≠ []) := by
  obtain ⟨space, parts, passing⟩ := exists_trimEndWhere isWideSpace content
  rw [named] at parts
  by_cases fed : formFeed ∈ space
  · exact .inr ⟨space, parts, passing, .inl fed⟩
  by_cases bare : name = [] ∧ space ≠ []
  · exact .inr ⟨space, parts, passing, .inr bare⟩
  have cut : Bytes.trimEndWhere isSpace content = name := by
    rw [parts]
    refine trimEndWhere_append (fun b held => ?_) fun b held => ?_
    · exact (Bool.or_eq_false_iff.1 (clean b held)).1
    · have other : b ≠ formFeed := fun same => fed (same ▸ held)
      exact (isWideSpace_eq other).symm.trans (passing b held)
  refine .inl ?_
  unfold Scan.endName
  rw [cut]
  dsimp only
  split
  · next empty =>
    have none := List.isEmpty_iff.1 empty
    have nothing : space = [] := Classical.not_not.1 fun some => bare ⟨none, some⟩
    rw [parts, nothing, List.append_nil]
  · rfl

theorem indexOf?_append {before : Bytes} (plain : closer ∉ before) (rest : Bytes) :
    Bytes.indexOf? (before ++ closer :: rest) closer = some before.length := by
  have nowhere : before.findIdx? (· == closer) = none :=
    List.findIdx?_eq_none_iff.2 fun b held => beq_false_of_ne fun same => plain (same ▸ held)
  unfold Bytes.indexOf?
  rw [List.findIdx?_append, nowhere, List.findIdx?_cons, beq_self_eq_true, if_pos rfl]
  exact congrArg some (Nat.zero_add before.length)

section EndTags

variable {content : Bytes}

theorem readConstruct_end (plain : closer ∉ content) (after : Bytes) :
    readConstruct (opener :: slash :: (content ++ closer :: after)) =
      .ok (.token (.finish (Bytes.trimEndWhere isWideSpace content)), content.length + 3) := by
  have plain' : closer ∉ opener :: slash :: content :=
    List.not_mem_cons_of_ne_of_not_mem (by decide)
      (List.not_mem_cons_of_ne_of_not_mem (by decide) plain)
  have found : Bytes.indexOf? (opener :: slash :: (content ++ closer :: after)) closer =
      some (content.length + 2) := indexOf?_append plain' after
  have between : ((opener :: slash :: (content ++ closer :: after)).take
      (content.length + 2)).drop 2 = content := List.take_left
  show readEndTag _ = _
  rw [readEndTag, found]
  dsimp only
  rw [between]

theorem ofBytes_end (plain : closer ∉ content) (after : Bytes) :
    Scan.ofBytes (opener :: slash :: (content ++ closer :: after)) =
      match Scan.tagCloser (openQuote none content) (content.length + 2) (closer :: after) with
      | none => .ended .unclosed
      | some i =>
        .event (.finish (Scan.endName (((opener :: slash :: (content ++ closer :: after)).take
          i).drop 2))) (i + 1) := by
  have plain' : closer ∉ slash :: content := List.not_mem_cons_of_ne_of_not_mem (by decide) plain
  have ends : Scan.tagCloser none 1 ((opener :: slash :: (content ++ closer :: after)).drop 1) =
      Scan.tagCloser (openQuote none content) (1 + (content.length + 1)) (closer :: after) :=
    tagCloser_append plain' after none 1
  have place : 1 + (content.length + 1) = content.length + 2 := by omega
  rw [place] at ends
  show Scan.ofEndTag _ = _
  cases scanned : Scan.tagCloser (openQuote none content) (content.length + 2)
      (closer :: after) with
  | none => simp only [Scan.ofEndTag, ends, scanned]
  | some i => simp only [Scan.ofEndTag, ends, scanned]

theorem ofBytes_unquoted_end (plain : closer ∉ content) (unquoted : openQuote none content = none)
    (after : Bytes) :
    Scan.ofBytes (opener :: slash :: (content ++ closer :: after)) =
      .event (.finish (Scan.endName content)) (content.length + 3) := by
  have closes : Scan.tagCloser none (content.length + 2) (closer :: after) =
      some (content.length + 2) := rfl
  have between : ((opener :: slash :: (content ++ closer :: after)).take
      (content.length + 2)).drop 2 = content := List.take_left
  rw [ofBytes_end plain, unquoted, closes]
  dsimp only
  rw [between]

end EndTags

/-- Both readings find the same end tag, unless quotes or white space part them. -/
theorem corresponds_or_parting_end {rest : Bytes}
    (clean : ∀ name, openNames.head? = some name → ∀ b ∈ name, isWideSpace b = false) :
    Corresponds openNames (opener :: slash :: rest) ∨
      ∃ cause, Parting openNames cause (opener :: slash :: rest) := by
  by_cases closed : closer ∈ rest
  · obtain ⟨content, after, rfl, plain⟩ := List.eq_append_cons_of_mem closed
    by_cases unquoted : openQuote none content = none
    · have events := ofBytes_unquoted_end plain unquoted after
      have tokens := readConstruct_end plain after
      by_cases same : ∀ name, openNames.head? = some name →
          Bytes.trimEndWhere isWideSpace content = name → Scan.endName content = name
      · refine .inl (.finish events tokens ⟨fun bears => ?_, fun bears => ?_⟩)
        · rw [trimEndWhere_of_endName (clean _ bears) rfl]
          exact bears
        · rw [same _ bears rfl]
          exact bears
      · obtain ⟨name, same⟩ := Classical.not_forall.1 same
        obtain ⟨innermost, same⟩ := Classical.not_imp.1 same
        obtain ⟨trimmed, differ⟩ := Classical.not_imp.1 same
        obtain ⟨space, rfl, blank, counts⟩ :=
          (endName_of_trimEndWhere (clean name innermost) trimmed).resolve_left differ
        exact .inr ⟨.blank, .blank innermost plain unquoted blank counts⟩
    · exact .inr ⟨.quote, .quote plain unquoted⟩
  · have plain : closer ∉ slash :: rest :=
      List.not_mem_cons_of_ne_of_not_mem (by decide) closed
    have events : Scan.ofBytes (opener :: slash :: rest) = .ended .unclosed := by
      have unclosed : Scan.tagCloser none 1 ((opener :: slash :: rest).drop 1) = none :=
        tagCloser_unclosed plain none 1
      show Scan.ofEndTag _ = _
      rw [Scan.ofEndTag, unclosed]
    have tokens : readConstruct (opener :: slash :: rest) = .error .unclosed := by
      have nowhere : Bytes.indexOf? (opener :: slash :: rest) closer = none :=
        List.findIdx?_eq_none_iff.2 fun b held => beq_false_of_ne fun same =>
          List.not_mem_cons_of_ne_of_not_mem (by decide) plain (same ▸ held)
      show readEndTag _ = _
      rw [readEndTag, nowhere]
    exact .inl (.unclosed (.inl events) tokens)

/-! ## Declarations and instructions -/

/-- Both readings find the same instruction, unless its opening question mark closes it. -/
theorem corresponds_or_parting_instruction {rest : Bytes} :
    Corresponds openNames (opener :: question :: rest) ∨
      ∃ cause, Parting openNames cause (opener :: question :: rest) := by
  have events : Scan.ofBytes (opener :: question :: rest) =
      Scan.ofInstruction (opener :: question :: rest) := rfl
  have tokens : readConstruct (opener :: question :: rest) =
      readSilent "?>" 2 (opener :: question :: rest) := rfl
  unfold Scan.ofInstruction at events
  unfold readSilent at tokens
  cases closes : (Bytes.ofAscii "?>").isPrefixOf (question :: rest) with
  | true =>
    have early : closedBy "?>" 1 (opener :: question :: rest) = some 3 := by
      unfold closedBy Bytes.offsetOf?
      dsimp only
      rw [List.drop_one, List.tail_cons, Bytes.seek, closes, if_pos rfl]
      rfl
    rw [early] at events
    cases closed : closedBy "?>" 2 (opener :: question :: rest) with
    | none =>
      rw [closed] at tokens
      exact .inl (.unclosed (.inr events) tokens)
    | some n =>
      have begins : (Bytes.ofAscii ">").isPrefixOf rest = true := closes
      obtain ⟨after, rfl⟩ := List.isPrefixOf_iff_prefix.1 begins
      exact .inr ⟨.instruction, @Parting.instruction openNames after n closed⟩
  | false =>
    have same : closedBy "?>" 1 (opener :: question :: rest) =
        closedBy "?>" 2 (opener :: question :: rest) := closedBy_skip rfl closes
    rw [same] at events
    cases closed : closedBy "?>" 2 (opener :: question :: rest) with
    | none =>
      rw [closed] at events tokens
      exact .inl (.unclosed (.inl events) tokens)
    | some n =>
      have long : 4 ≤ n := closedBy_le closed
      rw [closed] at events tokens
      refine .inl (.silent (events.trans (if_neg ?_)) tokens)
      omega

/-- No bytes of its opening close a verbatim section. -/
theorem closedBy_verbatim (content : Bytes) :
    closedBy "]]>" 2 (Bytes.ofAscii "<![CDATA[" ++ content) =
      closedBy "]]>" 9 (Bytes.ofAscii "<![CDATA[" ++ content) :=
  calc closedBy "]]>" 2 (Bytes.ofAscii "<![CDATA[" ++ content)
    _ = closedBy "]]>" 3 _ := closedBy_skip rfl rfl
    _ = closedBy "]]>" 4 _ := closedBy_skip rfl rfl
    _ = closedBy "]]>" 5 _ := closedBy_skip rfl rfl
    _ = closedBy "]]>" 6 _ := closedBy_skip rfl rfl
    _ = closedBy "]]>" 7 _ := closedBy_skip rfl rfl
    _ = closedBy "]]>" 8 _ := closedBy_skip rfl rfl
    _ = closedBy "]]>" 9 _ := closedBy_skip rfl rfl

/-- Both readings find the same verbatim section, unless there is none. -/
theorem corresponds_or_parting_verbatim (rest : Bytes) :
    Corresponds openNames (opener :: bang :: 0x5B :: rest) ∨
      ∃ cause, Parting openNames cause (opener :: bang :: 0x5B :: rest) := by
  cases begins : (Bytes.ofAscii "<![CDATA[").isPrefixOf (opener :: bang :: 0x5B :: rest) with
  | false => exact .inr ⟨.verbatim, @Parting.verbatim openNames rest begins⟩
  | true =>
    obtain ⟨content, same⟩ := List.isPrefixOf_iff_prefix.1 begins
    have events : Scan.ofBytes (opener :: bang :: 0x5B :: rest) =
        Scan.ofVerbatim (opener :: bang :: 0x5B :: rest) := rfl
    have tokens : readConstruct (opener :: bang :: 0x5B :: rest) =
        readVerbatim (opener :: bang :: 0x5B :: rest) := if_pos begins
    have early : closedBy "]]>" 2 (opener :: bang :: 0x5B :: rest) =
        closedBy "]]>" 9 (opener :: bang :: 0x5B :: rest) := same ▸ closedBy_verbatim content
    rw [Scan.ofVerbatim, early] at events
    rw [readVerbatim] at tokens
    cases closed : closedBy "]]>" 9 (opener :: bang :: 0x5B :: rest) with
    | none =>
      rw [closed] at events tokens
      exact .inl (.unclosed (.inl events) tokens)
    | some n =>
      rw [closed] at events tokens
      exact .inl (.verbatim (events.trans (if_pos begins)) tokens)

/-- Both readings find the same comment, unless there is none. -/
theorem corresponds_or_parting_comment (rest : Bytes) :
    Corresponds openNames (opener :: bang :: 0x2D :: rest) ∨
      ∃ cause, Parting openNames cause (opener :: bang :: 0x2D :: rest) := by
  cases begins : (Bytes.ofAscii "<!--").isPrefixOf (opener :: bang :: 0x2D :: rest) with
  | false => exact .inr ⟨.comment, @Parting.comment openNames rest begins⟩
  | true =>
    have events : Scan.ofBytes (opener :: bang :: 0x2D :: rest) =
        Scan.ofComment (opener :: bang :: 0x2D :: rest) := rfl
    have tokens : readConstruct (opener :: bang :: 0x2D :: rest) =
        readSilent "-->" 4 (opener :: bang :: 0x2D :: rest) := if_pos begins
    rw [Scan.ofComment] at events
    rw [readSilent] at tokens
    cases closed : closedBy "-->" 4 (opener :: bang :: 0x2D :: rest) with
    | none =>
      rw [closed] at events tokens
      exact .inl (.unclosed (.inl events) tokens)
    | some n =>
      rw [closed] at events tokens
      exact .inl (.silent (events.trans (if_pos begins)) tokens)

/-- What begins like a document type declaration is none in events if its letters differ. -/
theorem ofDeclaration_unnamed {b : UInt8} {rest : Bytes}
    (unnamed : Bytes.sameLetters (b :: rest.take 6) (Bytes.ofAscii "DOCTYPE") = false) :
    Scan.ofDeclaration (opener :: bang :: b :: rest) = .ended .unclosed ∨
      Scan.ofDeclaration (opener :: bang :: b :: rest) = .fault .unclosed := by
  unfold Scan.ofDeclaration
  cases Scan.bracketCloser 0 2 ((opener :: bang :: b :: rest).drop 2) with
  | none => exact .inl rfl
  | some i =>
    refine .inr (if_pos ?_)
    cases named : Bytes.sameLetters (((opener :: bang :: b :: rest).take i).take 9)
        (Bytes.ofAscii "<!DOCTYPE") with
    | false => rfl
    | true =>
      have nine : (((opener :: bang :: b :: rest).take i).take 9).length = 9 := by
        have lengths := congrArg List.length (eq_of_beq named)
        rwa [List.length_map, List.length_map] at lengths
      have whole : ((opener :: bang :: b :: rest).take i).take 9 =
          (opener :: bang :: b :: rest).take 9 := by
        rw [List.length_take, List.length_take] at nine
        rw [List.take_take, Nat.min_eq_left (by omega)]
      rw [whole] at named
      exact absurd (unnamed.symm.trans named) Bool.false_ne_true

/-- Both readings of a document type declaration. -/
theorem declaration_readings {rest : Bytes} {i : Nat}
    (named : Bytes.sameLetters (rest.take 7) (Bytes.ofAscii "DOCTYPE") = true)
    (closed : Scan.bracketCloser 0 2 rest = some (i + 2)) :
    Scan.ofDeclaration (opener :: bang :: rest) =
        (if ((rest.take i).drop 7).all isSpace then .fault .unnamedDocumentType
        else .event .other (i + 3)) ∧
      readDeclaration (opener :: bang :: rest) = .ok (.silent, i + 3) := by
  have nine := nine_le_of_closed named closed
  have kept : (rest.take i).take 7 = rest.take 7 := by
    rw [List.take_take, Nat.min_eq_left (by omega)]
  have letters : Bytes.sameLetters (((opener :: bang :: rest).take (i + 2)).take 9)
      (Bytes.ofAscii "<!DOCTYPE") = Bytes.sameLetters ((rest.take i).take 7)
        (Bytes.ofAscii "DOCTYPE") := rfl
  have ends : declarationEnd (opener :: bang :: rest) = Scan.bracketCloser 0 2 rest :=
    declarationEnd_eq _
  have closed' : Scan.bracketCloser 0 2 ((opener :: bang :: rest).drop 2) = some (i + 2) := closed
  constructor
  · rw [Scan.ofDeclaration, closed']
    dsimp only
    rw [letters, kept, named]
    rfl
  · rw [readDeclaration, ends, closed]

/-- Both readings find the same document type declaration, unless it is none or names no type. -/
theorem corresponds_or_parting_declaration {b : UInt8} (letter : b = 0x44 ∨ b = 0x64)
    (rest : Bytes) :
    Corresponds openNames (opener :: bang :: b :: rest) ∨
      ∃ cause, Parting openNames cause (opener :: bang :: b :: rest) := by
  have events : Scan.ofBytes (opener :: bang :: b :: rest) =
      Scan.ofDeclaration (opener :: bang :: b :: rest) := by
    rcases letter with rfl | rfl <;> rfl
  have tokens : readConstruct (opener :: bang :: b :: rest) =
      if Bytes.sameLetters (b :: rest.take 6) (Bytes.ofAscii "DOCTYPE") then
        readDeclaration (opener :: bang :: b :: rest)
      else .error .unknownDeclaration := by
    rcases letter with rfl | rfl <;> rfl
  cases named : Bytes.sameLetters (b :: rest.take 6) (Bytes.ofAscii "DOCTYPE") with
  | false => exact .inr ⟨.declaration, .declaration letter named⟩
  | true =>
    have named' : Bytes.sameLetters ((b :: rest).take 7) (Bytes.ofAscii "DOCTYPE") = true := named
    have ends : declarationEnd (opener :: bang :: b :: rest) =
        Scan.bracketCloser 0 2 (b :: rest) := declarationEnd_eq _
    rw [named, if_pos rfl] at tokens
    cases closed : Scan.bracketCloser 0 2 (b :: rest) with
    | none =>
      have closed' : Scan.bracketCloser 0 2 ((opener :: bang :: b :: rest).drop 2) = none := closed
      rw [readDeclaration, ends, closed] at tokens
      rw [Scan.ofDeclaration, closed'] at events
      exact .inl (.unclosed (.inl events) tokens)
    | some i =>
      obtain ⟨k, rfl⟩ : ∃ k, i = k + 2 :=
        ⟨i - 2, by have := nine_le_of_closed named' closed; omega⟩
      obtain ⟨event, token⟩ := declaration_readings named' closed
      cases bare : (((b :: rest).take k).drop 7).all isSpace with
      | true =>
        exact .inr ⟨.unnamed, @Parting.unnamed openNames (b :: rest) k named'
          (ends.trans closed) bare⟩
      | false =>
        rw [bare] at event
        exact .inl (.silent (events.trans event) (tokens.trans token))

theorem eq_of_lower_eq {b : UInt8} (same : Bytes.lower b = 0x64) : b = 0x44 ∨ b = 0x64 := by
  unfold Bytes.lower at same
  split at same
  · exact .inl ((UInt8.add_left_inj 0x20).1 same)
  · exact .inr same

/-- What begins neither like a verbatim section nor like a comment nor like a document type
declaration is none in both readings. -/
theorem corresponds_unknown {b : UInt8} (rest : Bytes) (noSection : b ≠ 0x5B) (noComment : b ≠ 0x2D)
    (noLetter : ¬ (b = 0x44 ∨ b = 0x64)) : Corresponds openNames (opener :: bang :: b :: rest) := by
  have events : Scan.ofBytes (opener :: bang :: b :: rest) = .fault .unknownSymbol := by
    obtain ⟨upper, lower⟩ := not_or.1 noLetter
    show (if b == 0x5B then _ else if b == 0x2D then _ else if b == 0x44 || b == 0x64 then _ else _)
      = _
    rw [beq_false_of_ne noSection, beq_false_of_ne noComment, beq_false_of_ne upper,
      beq_false_of_ne lower]
    rfl
  have tokens : readConstruct (opener :: bang :: b :: rest) = .error .unknownDeclaration := by
    have comment : ¬ (Bytes.ofAscii "<!--").isPrefixOf (opener :: bang :: b :: rest) = true := by
      intro begins
      have same : ((0x2D : UInt8) == b && (Bytes.ofAscii "-").isPrefixOf rest) = true := begins
      exact noComment (eq_of_beq (Bool.and_eq_true_iff.1 same).1).symm
    have verbatim : ¬ (Bytes.ofAscii "<![CDATA[").isPrefixOf (opener :: bang :: b :: rest) =
        true := by
      intro begins
      have same : ((0x5B : UInt8) == b && (Bytes.ofAscii "CDATA[").isPrefixOf rest) = true := begins
      exact noSection (eq_of_beq (Bool.and_eq_true_iff.1 same).1).symm
    have letters : ¬ Bytes.sameLetters (b :: rest.take 6) (Bytes.ofAscii "DOCTYPE") = true := by
      intro named
      exact noLetter (eq_of_lower_eq (List.cons.inj (eq_of_beq named)).1)
    exact ((if_neg comment).trans (if_neg verbatim)).trans (if_neg letters)
  exact .unknown (.inr events) tokens

/-- Both readings find the same at every place, unless one of the causes parts them. -/
theorem corresponds_or_parting (b : UInt8) (rest : Bytes)
    (clean : ∀ name, openNames.head? = some name → ∀ b ∈ name, isWideSpace b = false) :
    Corresponds openNames (b :: rest) ∨ ∃ cause, Parting openNames cause (b :: rest) := by
  by_cases opens : b = opener
  · subst opens
    cases rest with
    | nil => exact .inl (.unclosed (.inl rfl) rfl)
    | cons b rest =>
      by_cases ends : b = slash
      · exact ends ▸ corresponds_or_parting_end clean
      by_cases declares : b = bang
      · subst declares
        cases rest with
        | nil => exact .inl (.unknown (.inl rfl) rfl)
        | cons b rest =>
          by_cases verbatim : b = 0x5B
          · exact verbatim ▸ corresponds_or_parting_verbatim rest
          by_cases comment : b = 0x2D
          · exact comment ▸ corresponds_or_parting_comment rest
          by_cases letter : b = 0x44 ∨ b = 0x64
          · exact corresponds_or_parting_declaration letter rest
          · exact .inl (corresponds_unknown rest verbatim comment letter)
      by_cases instructs : b = question
      · exact instructs ▸ corresponds_or_parting_instruction
      refine corresponds_or_parting_start ?_ ?_
      · show (if b == bang then _ else if b == slash then _ else if b == question then _ else _) = _
        rw [beq_false_of_ne declares, beq_false_of_ne ends, beq_false_of_ne instructs]
        rfl
      · show (if b == slash then _ else if b == bang then _ else if b == question then _ else _) = _
        rw [beq_false_of_ne ends, beq_false_of_ne declares, beq_false_of_ne instructs]
        rfl
  · exact .inl (corresponds_text opens)

/-! ## Every cause parts the readings -/

section Inversion

variable {bytes : Bytes} {n : Nat}

theorem Corresponds.of_tag {isEmpty : Bool} {tag : Tag} (same : Corresponds openNames bytes)
    (scanned : Scan.ofBytes bytes = .event (.ofTag isEmpty tag) n) :
    ((∀ b ∈ tag.name, isWideSpace b = false) ∧
      ∀ kind, openNames.length = 1 → Walker.kindOf? tag.name = some kind → tag.SameKey kind) ∨
        isEmpty = true ∧ formFeed ∈ tag.name ∧ ¬ IsSought openNames.length tag.shortName := by
  cases same with
  | @start isEmpty' tag' n' scanned' read clean keys =>
    have equal := scanned.symm.trans scanned'
    cases isEmpty <;> cases isEmpty' <;> cases equal <;> exact .inl ⟨clean, keys⟩
  | @passed tag' n' scanned' read fed unsought =>
    have equal := scanned.symm.trans scanned'
    cases isEmpty <;> cases equal
    exact .inr ⟨rfl, fed, unsought⟩
  | _ => cases isEmpty <;> simp_all [Event.ofTag]

theorem Corresponds.of_finish {name' : Bytes} (same : Corresponds openNames bytes)
    (read : readConstruct bytes = .ok (.token (.finish name'), n)) :
    ∃ name, Scan.ofBytes bytes = .event (.finish name) n ∧
      (openNames.head? = some name ↔ openNames.head? = some name') := by
  cases same with
  | finish scanned read' bears =>
    cases read.symm.trans read'
    exact ⟨_, scanned, bears⟩
  | _ => simp_all

theorem Corresponds.of_silent (same : Corresponds openNames bytes)
    (read : readConstruct bytes = .ok (.silent, n)) : Scan.ofBytes bytes = .event .other n := by
  cases same with
  | silent scanned read' =>
    cases read.symm.trans read'
    exact scanned
  | _ => simp_all

/-- What tokens reject as a declaration is not one without an end in events. -/
theorem Corresponds.not_unclosed (same : Corresponds openNames bytes)
    (read : readConstruct bytes = .error .unknownDeclaration)
    (scanned : Scan.ofBytes bytes = .ended .unclosed ∨ Scan.ofBytes bytes = .fault .unclosed) :
    False := by
  cases same with
  | unknown scanned' => rcases scanned with scanned | scanned <;> simp_all
  | _ => simp_all

end Inversion

/-- The white space that parts the readings belongs to the name in the reading of events. -/
theorem endName_ne {name space : Bytes} (counts : formFeed ∈ space ∨ name = [] ∧ space ≠ []) :
    Scan.endName (name ++ space) ≠ name := by
  intro named
  obtain ⟨blank, parts, passing⟩ := exists_trimEndWhere isSpace (name ++ space)
  unfold Scan.endName at named
  dsimp only at named
  split at named
  · have nothing : space = [] := List.append_right_eq_self.1 named
    rcases counts with fed | ⟨-, some⟩
    · rw [nothing] at fed
      cases fed
    · exact some nothing
  · next some =>
    rw [named] at parts some
    have same : space = blank := List.append_cancel_left parts
    rcases counts with fed | ⟨rfl, -⟩
    · have narrow := passing formFeed (same ▸ fed)
      cases narrow
    · exact some rfl

/-- Cutting off white space keeps every other byte of an end tag. -/
theorem mem_endName {content : Bytes} {b : UInt8} (dark : isSpace b = false) (held : b ∈ content) :
    b ∈ Scan.endName content := by
  obtain ⟨blank, parts, passing⟩ := exists_trimEndWhere isSpace content
  unfold Scan.endName
  dsimp only
  split
  · exact held
  · rw [parts] at held
    refine (List.mem_append.1 held).resolve_right fun cut => ?_
    exact Bool.false_ne_true (dark.symm.trans (passing b cut))

namespace Parting

variable {bytes : Bytes}

/-- An end tag that closes the innermost element in the reading of tokens only. -/
theorem blank_readings (parting : Parting openNames .blank bytes)
    (clean : ∀ name, openNames.head? = some name → ∀ b ∈ name, isWideSpace b = false) :
    ∃ name name' n, openNames.head? = some name ∧ name ≠ name' ∧
      Scan.ofBytes bytes = .event (.finish name') n ∧
      readConstruct bytes = .ok (.token (.finish name), n) := by
  cases parting with
  | @blank name space after innermost plain unquoted blank counts =>
    have tokens := readConstruct_end plain after
    rw [trimEndWhere_append (clean name innermost) blank] at tokens
    exact ⟨name, _, _, innermost, (endName_ne counts).symm,
      ofBytes_unquoted_end plain unquoted after, tokens⟩

/-- An end tag whose name holds a `>` in the reading of events only. -/
theorem quote_readings (parting : Parting openNames .quote bytes) :
    ∃ name n, readConstruct bytes = .ok (.token (.finish name), n) ∧ closer ∉ name ∧
      (Scan.ofBytes bytes = .ended .unclosed ∨
        ∃ name' n', Scan.ofBytes bytes = .event (.finish name') n' ∧ closer ∈ name' ∧ n < n') := by
  cases parting with
  | @quote content after plain quoted =>
    have plain' : closer ∉ Bytes.trimEndWhere isWideSpace content := by
      obtain ⟨space, parts, -⟩ := exists_trimEndWhere isWideSpace content
      intro held
      exact plain (parts ▸ List.mem_append_left space held)
    have scanned := ofBytes_end plain after
    obtain ⟨q, quote⟩ := Option.ne_none_iff_exists'.1 quoted
    rw [quote] at scanned
    refine ⟨_, _, readConstruct_end plain after, plain', ?_⟩
    cases closed : Scan.tagCloser (some q) (content.length + 2) (closer :: after) with
    | none =>
      rw [closed] at scanned
      exact .inl scanned
    | some i =>
      have beyond : content.length + 3 ≤ i := tagCloser_le after closed
      rw [closed] at scanned
      refine .inr ⟨_, _, scanned, mem_endName rfl ?_, Nat.lt_succ_of_le beyond⟩
      have between : ((opener :: slash :: (content ++ closer :: after)).take i).drop 2 =
          content ++ (closer :: after).take (i - 2 - content.length) := by
        rw [List.drop_take, List.drop_succ_cons, List.drop_succ_cons, List.drop_zero,
          List.take_append, List.take_of_length_le (by omega)]
      obtain ⟨k, more⟩ : ∃ k, i - 2 - content.length = k + 1 :=
        ⟨i - 3 - content.length, by omega⟩
      rw [between, more]
      exact List.mem_append_right content List.mem_cons_self

theorem verbatim_readings (parting : Parting openNames .verbatim bytes) :
    (Scan.ofBytes bytes = .ended .unclosed ∨ Scan.ofBytes bytes = .fault .unclosed) ∧
      readConstruct bytes = .error .unknownDeclaration := by
  cases parting with
  | @verbatim rest begins =>
    have begins' : ¬ (Bytes.ofAscii "<![CDATA[").isPrefixOf (opener :: bang :: 0x5B :: rest) =
        true := fun yes => Bool.false_ne_true (begins.symm.trans yes)
    refine ⟨?_, if_neg begins'⟩
    show Scan.ofVerbatim (opener :: bang :: 0x5B :: rest) = _ ∨
      Scan.ofVerbatim (opener :: bang :: 0x5B :: rest) = _
    unfold Scan.ofVerbatim
    cases closedBy "]]>" 2 (opener :: bang :: 0x5B :: rest) with
    | none => exact .inl rfl
    | some n => exact .inr (if_neg begins')

theorem comment_readings (parting : Parting openNames .comment bytes) :
    (Scan.ofBytes bytes = .ended .unclosed ∨ Scan.ofBytes bytes = .fault .unclosed) ∧
      readConstruct bytes = .error .unknownDeclaration := by
  cases parting with
  | @comment rest begins =>
    have begins' : ¬ (Bytes.ofAscii "<!--").isPrefixOf (opener :: bang :: 0x2D :: rest) =
        true := fun yes => Bool.false_ne_true (begins.symm.trans yes)
    refine ⟨?_, if_neg begins'⟩
    show Scan.ofComment (opener :: bang :: 0x2D :: rest) = _ ∨
      Scan.ofComment (opener :: bang :: 0x2D :: rest) = _
    unfold Scan.ofComment
    cases closedBy "-->" 4 (opener :: bang :: 0x2D :: rest) with
    | none => exact .inl rfl
    | some n => exact .inr (if_neg begins')

theorem declaration_readings (parting : Parting openNames .declaration bytes) :
    (Scan.ofBytes bytes = .ended .unclosed ∨ Scan.ofBytes bytes = .fault .unclosed) ∧
      readConstruct bytes = .error .unknownDeclaration := by
  cases parting with
  | @declaration b rest letter unnamed =>
    have unnamed' : ¬ Bytes.sameLetters (b :: rest.take 6) (Bytes.ofAscii "DOCTYPE") = true :=
      fun yes => Bool.false_ne_true (unnamed.symm.trans yes)
    have tokens : readConstruct (opener :: bang :: b :: rest) = .error .unknownDeclaration := by
      rcases letter with rfl | rfl <;> exact if_neg unnamed'
    have events : Scan.ofBytes (opener :: bang :: b :: rest) =
        Scan.ofDeclaration (opener :: bang :: b :: rest) := by
      rcases letter with rfl | rfl <;> rfl
    refine ⟨?_, tokens⟩
    show Scan.ofBytes (opener :: bang :: b :: rest) = _ ∨
      Scan.ofBytes (opener :: bang :: b :: rest) = _
    rw [events]
    exact ofDeclaration_unnamed unnamed

theorem unnamed_readings (parting : Parting openNames .unnamed bytes) :
    Scan.ofBytes bytes = .fault .unnamedDocumentType ∧
      ∃ n, readConstruct bytes = .ok (.silent, n) := by
  cases parting with
  | @unnamed rest i named closed bare =>
    have ends : declarationEnd (opener :: bang :: rest) = Scan.bracketCloser 0 2 rest :=
      declarationEnd_eq _
    obtain ⟨event, token⟩ := GraphScribe.declaration_readings named (ends.symm.trans closed)
    rw [bare, if_pos rfl] at event
    cases rest with
    | nil => cases named
    | cons b rest =>
      have letter := eq_of_lower_eq (List.cons.inj (eq_of_beq named)).1
      refine ⟨Eq.trans ?_ event, i + 3, Eq.trans ?_ token⟩
      · rcases letter with rfl | rfl <;> rfl
      · rcases letter with rfl | rfl <;> exact if_pos named

theorem instruction_readings (parting : Parting openNames .instruction bytes) :
    Scan.ofBytes bytes = .fault .unclosed ∧ ∃ n, readConstruct bytes = .ok (.silent, n) := by
  cases parting with
  | @instruction rest n closed =>
    have early : closedBy "?>" 1 (opener :: question :: closer :: rest) = some 3 := rfl
    have later : closedBy "?>" 2 (opener :: question :: closer :: rest) = some n := closed
    refine ⟨?_, n, ?_⟩
    · show Scan.ofInstruction (opener :: question :: closer :: rest) = _
      rw [Scan.ofInstruction, early]
      rfl
    · show readSilent "?>" 2 (opener :: question :: closer :: rest) = _
      rw [readSilent, later]

/-- At none of the listed places do both readings find the same. -/
theorem not_corresponds {cause : PartingCause} (parting : Parting openNames cause bytes)
    (clean : ∀ name, openNames.head? = some name → ∀ b ∈ name, isWideSpace b = false) :
    ¬ Corresponds openNames bytes := by
  intro same
  cases cause with
  | name =>
    cases parting with
    | name scanned _ fed sought =>
      rcases same.of_tag scanned with ⟨clean, -⟩ | ⟨empty, -, unsought⟩
      · cases clean formFeed fed
      · exact unsought (sought empty)
  | value =>
    cases parting with
    | @value _ _ tag _ kind scanned read member named _ differ =>
      rcases same.of_tag scanned with ⟨-, keys⟩ | ⟨-, fed, unsought⟩
      · exact differ (keys _ member named)
      · rw [tag_of_kindOf? named] at fed
        cases kind <;> exact absurd fed (by decide)
  | quote =>
    obtain ⟨name, n, tokens, -, events⟩ := parting.quote_readings
    obtain ⟨name₁, scanned, -⟩ := same.of_finish tokens
    rcases events with unclosed | ⟨name', n', events, -, beyond⟩
    · cases unclosed.symm.trans scanned
    · cases events.symm.trans scanned
      exact Nat.lt_irrefl _ beyond
  | blank =>
    obtain ⟨name, name', n, innermost, differ, events, tokens⟩ := parting.blank_readings clean
    obtain ⟨name₁, scanned, bears⟩ := same.of_finish tokens
    have named : name' = name₁ := Event.finish.inj (Scan.event.inj (events.symm.trans scanned)).1
    have equal := Option.some.inj (innermost.symm.trans (bears.2 innermost))
    exact differ (equal.trans named.symm)
  | verbatim => exact same.not_unclosed parting.verbatim_readings.2 parting.verbatim_readings.1
  | comment => exact same.not_unclosed parting.comment_readings.2 parting.comment_readings.1
  | declaration =>
    exact same.not_unclosed parting.declaration_readings.2 parting.declaration_readings.1
  | unnamed =>
    obtain ⟨events, n, tokens⟩ := parting.unnamed_readings
    cases events.symm.trans (same.of_silent tokens)
  | instruction =>
    obtain ⟨events, n, tokens⟩ := parting.instruction_readings
    cases events.symm.trans (same.of_silent tokens)

end Parting

/-- The listed places are those where the readings find different things. -/
theorem parting_iff (b : UInt8) (rest : Bytes)
    (clean : ∀ name, openNames.head? = some name → ∀ b ∈ name, isWideSpace b = false) :
    (∃ cause, Parting openNames cause (b :: rest)) ↔ ¬ Corresponds openNames (b :: rest) :=
  ⟨fun ⟨_, parting⟩ => parting.not_corresponds clean,
    (corresponds_or_parting b rest clean).resolve_left⟩

end GraphScribe
