import GraphScribe.Markup.Attribute
import GraphScribe.Proofs.Markup.Locality
import Mathlib.Data.PFun

/-!
# Reading by offsets

Constructs and attributes read from bytes that are addressed by offsets. A slice, an index or a
difference may be out of range, which is a fault; and a loop goes on from an offset that it has
computed, which need not be a later one. A `Guarded` computation shows both: it ends with a value or
with a fault, or it never ends.

* `Guarded.loop`: rounds up to one that gives a value, of which there may be none.
* `tagEndAt_eq`, `bracketEndAt_eq`, `attributesAt_eq`: the loops end without a fault, and give what
  the readers of `Markup.Token` and `Markup.Attribute` give.
* `constructAt_eq`: so does reading the construct at the front of some bytes.
-/

namespace GraphScribe.Markup

/-- What stops a computation with offsets. -/
inductive BoundsFault where
  /-- A slice ends before it begins, or behind the bytes. -/
  | slice
  /-- There is no byte at an offset. -/
  | index
  /-- A difference is below zero. -/
  | negative
deriving DecidableEq, Repr

/-- A computation with offsets. One that never ends is undefined. -/
abbrev Guarded := ExceptT BoundsFault Part

namespace Guarded

variable {α β σ : Type}

/-- What a round of a loop leads to: the end of the loop, or a state for the next round. A fault
ends the loop. -/
def afterRound : Except BoundsFault (α ⊕ σ) → Except BoundsFault α ⊕ σ
  | .error fault => .inl (.error fault)
  | .ok (.inl a) => .inl (.ok a)
  | .ok (.inr s) => .inr s

/-- Makes rounds from a state on, up to one that gives a value. -/
def loop (round : σ → Guarded (α ⊕ σ)) (s : σ) : Guarded α :=
  ExceptT.mk (PFun.fix (fun s => (round s).run.map afterRound) s)

variable {round : σ → Guarded (α ⊕ σ)} {s s' : σ} {a : α} {fault : BoundsFault}

theorem loop_last (last : round s = pure (.inl a)) : loop round s = pure a := by
  refine Part.eq_some_iff.2 (PFun.fix_stop ?_)
  rw [last]
  exact Part.mem_map afterRound (Part.mem_some _)

theorem loop_again (again : round s = pure (.inr s')) : loop round s = loop round s' := by
  refine PFun.fix_fwd_eq ?_
  rw [again]
  exact Part.mem_map afterRound (Part.mem_some _)

theorem loop_fault (faulty : round s = throw fault) : loop round s = throw fault := by
  refine Part.eq_some_iff.2 (PFun.fix_stop ?_)
  rw [faulty]
  exact Part.mem_map afterRound (Part.mem_some _)

theorem throw_bind (fault : BoundsFault) (f : α → Guarded β) :
    (throw fault : Guarded α) >>= f = throw fault :=
  Part.bind_some _ _

end Guarded

/-- The bytes from one offset to another. -/
def slice (bytes : Bytes) (start stop : Nat) : Guarded Bytes :=
  if start ≤ stop ∧ stop ≤ bytes.length then pure ((bytes.take stop).drop start)
  else throw .slice

/-- The bytes from an offset on. -/
def sliceFrom (bytes : Bytes) (start : Nat) : Guarded Bytes :=
  slice bytes start bytes.length

/-- The byte at an offset. -/
def byteAt (bytes : Bytes) (offset : Nat) : Guarded UInt8 :=
  match bytes[offset]? with
  | some b => pure b
  | none => throw .index

/-- A difference of lengths. -/
def difference (a b : Nat) : Guarded Nat :=
  if b ≤ a then pure (a - b) else throw .negative

section

variable {bytes after : Bytes} {start stop i : Nat} {b : UInt8}

theorem slice_eq (ordered : start ≤ stop) (within : stop ≤ bytes.length) :
    slice bytes start stop = pure ((bytes.take stop).drop start) :=
  if_pos ⟨ordered, within⟩

theorem slice_front (within : stop ≤ bytes.length) :
    slice bytes 0 stop = pure (bytes.take stop) := by
  rw [slice_eq (Nat.zero_le stop) within, List.drop_zero]

theorem sliceFrom_eq (within : start ≤ bytes.length) :
    sliceFrom bytes start = pure (bytes.drop start) := by
  rw [sliceFrom, slice_eq within (Nat.le_refl _), List.take_length]

theorem sliceFrom_fault (beyond : bytes.length < start) :
    sliceFrom bytes start = throw .slice :=
  if_neg fun ordered => absurd ordered.1 (Nat.not_le_of_lt beyond)

theorem byteAt_eq (held : bytes[i]? = some b) : byteAt bytes i = pure b := by
  rw [byteAt, held]

theorem difference_eq {a b : Nat} (ordered : b ≤ a) : difference a b = pure (a - b) :=
  if_pos ordered

/-- A byte with what follows it, found behind an offset, by their own offsets. -/
theorem offset_of_drop (left : (bytes.drop start).drop i = b :: after) :
    start + i < bytes.length ∧ bytes[start + i]? = some b ∧
      bytes.drop (start + i + 1) = after := by
  rw [List.drop_drop] at left
  refine ⟨Nat.lt_of_not_le fun beyond => ?_, ?_, ?_⟩
  · rw [List.drop_eq_nil_of_le beyond] at left
    cases left
  · rw [← Nat.add_zero (start + i), ← List.getElem?_drop, left]
    rfl
  · rw [← List.drop_drop, left]
    rfl

theorem findIdx?_lt {p : UInt8 → Bool} (found : bytes.findIdx? p = some i) : i < bytes.length :=
  (List.findIdx?_eq_some_iff_findIdx_eq.1 found).1

end

/-! ## Ends of tags and declarations -/

/-- Looks from an offset outside quotes on for the `>` that ends a tag, up to the end of the next
value at most. -/
def tagRound (tag : Bytes) (offset : Nat) : Guarded (Option Nat ⊕ Nat) := do
  match (← sliceFrom tag offset).findIdx? isTagMark with
  | none => return .inl none
  | some i =>
    let found := offset + i
    let mark ← byteAt tag found
    if mark == closer then return .inl (some found)
    match (← sliceFrom tag (found + 1)).findIdx? (· == mark) with
    | none => return .inl none
    | some j => return .inr (found + 1 + j + 1)

/-- The offset of the `>` that ends a tag, looked for from an offset outside quotes on. -/
def tagEndAt (tag : Bytes) (offset : Nat) : Guarded (Option Nat) :=
  Guarded.loop (tagRound tag) offset

/-- The next mark ends the tag or opens a value. -/
theorem tagRound_marked {tag after : Bytes} {offset i : Nat} {mark : UInt8}
    (within : offset ≤ tag.length) (marked : (tag.drop offset).findIdx? isTagMark = some i)
    (rest : (tag.drop offset).drop i = mark :: after) :
    tagRound tag offset =
      if mark == closer then pure (.inl (some (offset + i)))
      else
        match after.findIdx? (· == mark) with
        | none => pure (.inl none)
        | some j => pure (.inr (offset + i + 1 + j + 1)) := by
  obtain ⟨inside, held, behind⟩ := offset_of_drop rest
  rw [tagRound, sliceFrom_eq within, pure_bind, marked]
  dsimp only
  rw [byteAt_eq held, pure_bind, sliceFrom_eq inside, pure_bind, behind]

/-- Each round begins behind the last, so the search ends. -/
theorem tagEndAt_eq (tag : Bytes) {offset : Nat} (within : offset ≤ tag.length) :
    tagEndAt tag offset = pure (tagEndFrom (tag.drop offset) offset) := by
  generalize left : tag.drop offset = bytes
  fun_induction tagEndFrom bytes offset with
  | case1 bytes offset unmarked =>
    apply Guarded.loop_last
    rw [tagRound, sliceFrom_eq within, pure_bind, left, unmarked]
  | case2 bytes offset i marked nothing =>
    have inside := findIdx?_lt marked
    rw [List.drop_eq_nil_iff] at nothing
    omega
  | case3 bytes offset i marked mark after rest closes =>
    subst left
    apply Guarded.loop_last
    rw [tagRound_marked within marked rest, if_pos closes]
  | case4 bytes offset i marked mark after rest opens unclosed =>
    subst left
    apply Guarded.loop_last
    rw [tagRound_marked within marked rest, if_neg opens, unclosed]
  | case5 bytes offset i marked mark after rest opens j closed _ ih =>
    subst left
    have again : tagRound tag offset = pure (.inr (offset + i + 1 + j + 1)) := by
      rw [tagRound_marked within marked rest, if_neg opens, closed]
    rw [tagEndAt, Guarded.loop_again again]
    obtain ⟨inside, -, behind⟩ := offset_of_drop rest
    have quoted := findIdx?_lt closed
    subst behind
    rw [List.length_drop] at quoted
    refine ih (by omega) ?_
    rw [List.drop_drop, Nat.add_assoc]

/-- Looks from an offset on for the next bracket, with `depth` brackets open. -/
def bracketRound (declaration : Bytes) : Nat × Nat → Guarded (Option Nat ⊕ Nat × Nat)
  | (depth, offset) => do
    match (← sliceFrom declaration offset).findIdx? isBracket with
    | none => return .inl none
    | some i =>
      let found := offset + i
      if (← byteAt declaration found) == opener then return .inr (depth + 1, found + 1)
      let depth ← difference depth 1
      if depth == 0 then return .inl (some found)
      return .inr (depth, found + 1)

/-- The offset of the bracket that closes `depth` brackets, looked for from an offset on. -/
def bracketEndAt (declaration : Bytes) (depth offset : Nat) : Guarded (Option Nat) :=
  Guarded.loop (bracketRound declaration) (depth, offset)

/-- The next bracket opens or closes. -/
theorem bracketRound_found {declaration after : Bytes} {depth offset i : Nat} {bracket : UInt8}
    (opened : 1 ≤ depth) (within : offset ≤ declaration.length)
    (found : (declaration.drop offset).findIdx? isBracket = some i)
    (rest : (declaration.drop offset).drop i = bracket :: after) :
    bracketRound declaration (depth, offset) =
      if bracket == opener then pure (.inr (depth + 1, offset + i + 1))
      else if depth - 1 == 0 then pure (.inl (some (offset + i)))
      else pure (.inr (depth - 1, offset + i + 1)) := by
  obtain ⟨-, held, -⟩ := offset_of_drop rest
  rw [bracketRound, sliceFrom_eq within, pure_bind, found]
  dsimp only
  rw [byteAt_eq held, pure_bind, difference_eq opened, pure_bind]

/-- The search ends where no bracket is open, so it never closes one more. -/
theorem bracketEndAt_eq (declaration : Bytes) {depth offset : Nat} (opened : 1 ≤ depth)
    (within : offset ≤ declaration.length) :
    bracketEndAt declaration depth offset =
      pure (bracketEndFrom depth (declaration.drop offset) offset) := by
  generalize left : declaration.drop offset = bytes
  fun_induction bracketEndFrom depth bytes offset with
  | case1 depth bytes offset plain =>
    apply Guarded.loop_last
    rw [bracketRound, sliceFrom_eq within, pure_bind, left, plain]
  | case2 depth bytes offset i found nothing =>
    have inside := findIdx?_lt found
    rw [List.drop_eq_nil_iff] at nothing
    omega
  | case3 depth bytes offset i found bracket after rest _ opens ih =>
    subst left
    have again : bracketRound declaration (depth, offset) =
        pure (.inr (depth + 1, offset + i + 1)) := by
      rw [bracketRound_found opened within found rest, if_pos opens]
    rw [bracketEndAt, Guarded.loop_again again]
    obtain ⟨inside, -, behind⟩ := offset_of_drop rest
    exact ih (Nat.le_add_left 1 depth) inside behind
  | case4 depth bytes offset i found bracket after rest _ closes shallow =>
    subst left
    have last : (depth - 1 == 0) = true := by
      rw [beq_iff_eq]
      omega
    apply Guarded.loop_last
    rw [bracketRound_found opened within found rest, if_neg closes, if_pos last]
  | case5 depth bytes offset i found bracket after rest _ closes deep ih =>
    subst left
    have more : ¬ (depth - 1 == 0) = true := by
      rw [beq_iff_eq]
      omega
    have again : bracketRound declaration (depth, offset) =
        pure (.inr (depth - 1, offset + i + 1)) := by
      rw [bracketRound_found opened within found rest, if_neg closes, if_neg more]
    rw [bracketEndAt, Guarded.loop_again again]
    obtain ⟨inside, -, behind⟩ := offset_of_drop rest
    exact ih (by omega) inside behind

/-! ## Attributes -/

/-- The value after a key and its equal sign, and what follows the closing quote. -/
def valueAt (raw : Bytes) : Guarded (Except AttributeProblem (Bytes × Bytes)) := do
  let quoted := Attribute.skipSpace raw
  match quoted.head? with
  | none => return .error .noValue
  | some quote =>
    if isQuote quote then
      match (← sliceFrom quoted 1).indexOf? quote with
      | none => return .error .notClosed
      | some length =>
        let value ← slice quoted 1 (1 + length)
        return .ok (value, ← sliceFrom quoted (length + 2))
    else return .error .notQuoted

/-- The attribute at the front of some bytes, and what follows it. -/
def attributeAt (raw : Bytes) : Guarded (Except AttributeFault (Attribute × Bytes)) := do
  let length := raw.findIdx (!Attribute.isKeyByte ·)
  let key ← slice raw 0 length
  match Attribute.skipSpace (← sliceFrom raw length) with
  | [] => return .error ⟨key, .noValue⟩
  | sign :: behind =>
    if sign == equals then
      match ← valueAt behind with
      | .ok (value, after) => return .ok ((key, value), after)
      | .error problem => return .error ⟨key, problem⟩
    else return .error ⟨key, .noValue⟩

/-- Reads an attribute after the ones in `done` (last first). -/
def attributesRound : List Attribute × Bytes →
    Guarded (Except AttributeFault (List Attribute) ⊕ List Attribute × Bytes)
  | (done, raw) => do
    let raw := Attribute.skipSpace raw
    if raw.isEmpty then return .inl (.ok done.reverse)
    match ← attributeAt raw with
    | .error fault => return .inl (.error fault)
    | .ok (a, after) =>
      if done.any (·.1 == a.1) then return .inl (.error ⟨a.1, .duplicate⟩)
      return .inr (a :: done, after)

/-- Attributes after the ones in `done` (last first). -/
def attributesAt (done : List Attribute) (raw : Bytes) :
    Guarded (Except AttributeFault (List Attribute)) :=
  Guarded.loop attributesRound (done, raw)

section

variable {p ends : UInt8 → Bool}

/-- A run off the front of some bytes reaches to the first byte that does not belong to it. -/
theorem run_eq (opposite : ∀ b, p b = !ends b) (bytes : Bytes) :
    bytes.takeWhile p = bytes.take (bytes.findIdx ends) ∧
      bytes.dropWhile p = bytes.drop (bytes.findIdx ends) := by
  have test : (fun b => !p b) = ends := funext fun b => by rw [opposite, Bool.not_not]
  rw [List.takeWhile_eq_take_findIdx_not, List.dropWhile_eq_drop_findIdx_not, test]
  exact ⟨rfl, rfl⟩

theorem slices_of_run (opposite : ∀ b, p b = !ends b) (bytes : Bytes) :
    slice bytes 0 (bytes.findIdx ends) = pure (bytes.takeWhile p) ∧
      sliceFrom bytes (bytes.findIdx ends) = pure (bytes.dropWhile p) := by
  rw [slice_front List.findIdx_le_length, sliceFrom_eq List.findIdx_le_length,
    (run_eq opposite bytes).1, (run_eq opposite bytes).2]
  exact ⟨rfl, rfl⟩

end

/-- The first byte of a kind, if there is one, ends a run of other bytes. -/
theorem run_of_indexOf? (bytes : Bytes) (b : UInt8) :
    match bytes.indexOf? b with
    | none => bytes.dropWhile (· != b) = []
    | some i =>
      i < bytes.length ∧ bytes.takeWhile (· != b) = bytes.take i ∧
        bytes.dropWhile (· != b) = b :: bytes.drop (i + 1) := by
  obtain ⟨front, behind⟩ := run_eq (p := (· != b)) (fun _ => rfl) bytes
  rw [front, behind]
  cases found : bytes.indexOf? b with
  | none =>
    rw [List.findIdx?_eq_none_iff_findIdx_eq.1 found]
    exact List.drop_length
  | some i =>
    obtain ⟨inside, first⟩ := List.findIdx?_eq_some_iff_findIdx_eq.1 found
    have here : bytes[i] = b := by
      obtain ⟨_, same, -⟩ := List.findIdx?_eq_some_iff_getElem.1 found
      exact eq_of_beq same
    rw [first, List.drop_eq_getElem_cons inside, here]
    exact ⟨inside, rfl, rfl⟩

theorem valueAt_eq (raw : Bytes) : valueAt raw = pure (Attribute.readValue raw) := by
  rw [valueAt, Attribute.readValue]
  cases Attribute.skipSpace raw with
  | nil => rfl
  | cons quote rest =>
    dsimp only [List.head?_cons]
    by_cases opens : isQuote quote = true
    · rw [if_pos opens, if_pos opens, sliceFrom_eq (Nat.le_add_left 1 _), pure_bind]
      rw [List.drop_one, List.tail_cons]
      have closes := run_of_indexOf? rest quote
      cases found : Bytes.indexOf? rest quote with
      | none =>
        rw [found] at closes
        rw [closes]
      | some i =>
        rw [found] at closes
        obtain ⟨inside, value, after⟩ := closes
        have within : i + 2 ≤ (quote :: rest).length := by
          rw [List.length_cons]
          omega
        dsimp only
        rw [slice_eq (Nat.le_add_right 1 i) (by omega), pure_bind, sliceFrom_eq within, pure_bind,
          value, after, Nat.add_comm 1 i]
        rfl
    · rw [if_neg opens, if_neg opens]

theorem attributeAt_eq (raw : Bytes) : attributeAt raw = pure (Attribute.read raw) := by
  have twice (b : UInt8) : Attribute.isKeyByte b = !!Attribute.isKeyByte b := (Bool.not_not _).symm
  obtain ⟨key, behind⟩ := slices_of_run twice raw
  rw [attributeAt, key, pure_bind, behind, pure_bind, Attribute.read]
  cases Attribute.skipSpace (raw.dropWhile Attribute.isKeyByte) with
  | nil => rfl
  | cons sign behind =>
    dsimp only
    rw [valueAt_eq, pure_bind]
    by_cases equal : (sign == equals) = true
    · rw [if_pos equal, if_pos equal]
      cases Attribute.readValue behind <;> rfl
    · rw [if_neg equal, if_neg equal]

/-- Each attribute takes at least one byte, so reading them ends. -/
theorem attributesAt_eq (done : List Attribute) (raw : Bytes) :
    attributesAt done raw = pure (Attribute.readAllFrom done raw) := by
  fun_induction Attribute.readAllFrom done raw with
  | case1 done raw nothing =>
    apply Guarded.loop_last
    rw [attributesRound, nothing]
    rfl
  | case2 done raw b rest left fault faulty =>
    apply Guarded.loop_last
    rw [attributesRound, left, attributeAt_eq, pure_bind, faulty]
    rfl
  | case3 done raw b rest left a after read _ _ repeated =>
    apply Guarded.loop_last
    rw [attributesRound, left, attributeAt_eq, pure_bind, read]
    exact if_pos repeated
  | case4 done raw b rest left a after read _ _ new ih =>
    have again : attributesRound (done, raw) = pure (.inr (a :: done, after)) := by
      rw [attributesRound, left, attributeAt_eq, pure_bind, read]
      exact if_neg new
    rw [attributesAt, Guarded.loop_again again]
    exact ih

/-! ## Constructs -/

/-- A silent construct that ends with a terminator. -/
def silentAt (terminator : String) (start : Nat) (bytes : Bytes) :
    Guarded (Except ConstructFault (Construct × Nat)) := do
  let terminator := Bytes.ofAscii terminator
  match Bytes.offsetOf? terminator (← sliceFrom bytes start) with
  | none => return .error .unclosed
  | some i => return .ok (.silent, start + i + terminator.length)

/-- A verbatim section. -/
def verbatimAt (bytes : Bytes) : Guarded (Except ConstructFault (Construct × Nat)) := do
  match Bytes.offsetOf? (Bytes.ofAscii "]]>") (← sliceFrom bytes 9) with
  | none => return .error .unclosed
  | some i => return .ok (.token (.piece (.verbatim (← slice bytes 9 (9 + i)))), 9 + i + 3)

/-- A document type declaration. -/
def declarationAt (bytes : Bytes) : Guarded (Except ConstructFault (Construct × Nat)) := do
  match ← bracketEndAt bytes 1 2 with
  | none => return .error .unclosed
  | some i => return .ok (.silent, i + 1)

/-- Whether some bytes begin like a document type declaration. -/
def declaresTypeAt (bytes : Bytes) : Guarded Bool := do
  if 9 ≤ bytes.length then return Bytes.sameLetters (← slice bytes 2 9) (Bytes.ofAscii "DOCTYPE")
  else return false

/-- What begins with `<!`. -/
def bangAt (bytes : Bytes) : Guarded (Except ConstructFault (Construct × Nat)) := do
  if (Bytes.ofAscii "<!--").isPrefixOf bytes then silentAt "-->" 4 bytes
  else if (Bytes.ofAscii "<![CDATA[").isPrefixOf bytes then verbatimAt bytes
  else if ← declaresTypeAt bytes then declarationAt bytes
  else return .error .unknownDeclaration

/-- An end tag. -/
def endTagAt (bytes : Bytes) : Guarded (Except ConstructFault (Construct × Nat)) := do
  match bytes.indexOf? closer with
  | none => return .error .unclosed
  | some i =>
    let name ← slice bytes 2 i
    return .ok (.token (.finish (Bytes.trimEndWhere isWideSpace name)), i + 1)

/-- The content of a start tag, split at its first white space. -/
def startTokenAt (content : Bytes) : Guarded Token := do
  let isEmpty := content.getLast? == some slash
  let content ← if isEmpty then slice content 0 (← difference content.length 1) else pure content
  let length := content.findIdx isWideSpace
  return .start (← slice content 0 length) (← sliceFrom content length) isEmpty

/-- A start tag. -/
def startTagAt (bytes : Bytes) : Guarded (Except ConstructFault (Construct × Nat)) := do
  match ← tagEndAt bytes 1 with
  | none => return .error .unclosed
  | some i => return .ok (.token (← startTokenAt (← slice bytes 1 i)), i + 1)

/-- A text up to the next construct. -/
def textAt (bytes : Bytes) : Guarded (Construct × Nat) := do
  let length := bytes.findIdx (· == opener)
  return (.token (.piece (.text (← slice bytes 0 length))), length)

/-- The construct at the front of some bytes, of which there is at least one, and the number of
bytes that it takes. -/
def constructAt (bytes : Bytes) : Guarded (Except ConstructFault (Construct × Nat)) := do
  if (← byteAt bytes 0) == opener then
    match bytes[1]? with
    | none => return .error .unclosed
    | some b =>
      if b == slash then endTagAt bytes
      else if b == bang then bangAt bytes
      else if b == question then silentAt "?>" 2 bytes
      else startTagAt bytes
  else return .ok (← textAt bytes)

section

variable {bytes : Bytes}

theorem silentAt_eq {terminator : String} {start : Nat} (within : start ≤ bytes.length) :
    silentAt terminator start bytes = pure (readSilent terminator start bytes) := by
  rw [silentAt, sliceFrom_eq within, pure_bind, readSilent, closedBy]
  cases Bytes.offsetOf? (Bytes.ofAscii terminator) (bytes.drop start) <;> rfl

theorem verbatimAt_eq (within : 9 ≤ bytes.length) :
    verbatimAt bytes = pure (readVerbatim bytes) := by
  have closing (n : Nat) (closed : closedBy "]]>" 9 bytes = some n) : n ≤ bytes.length := by
    obtain ⟨front, tail, rfl, rfl, -⟩ := closedBy_local (by decide) closed
    rw [List.length_append]
    exact Nat.le_add_right _ _
  rw [verbatimAt, sliceFrom_eq within, pure_bind, readVerbatim]
  rw [closedBy] at closing ⊢
  cases found : Bytes.offsetOf? (Bytes.ofAscii "]]>") (bytes.drop 9) with
  | none => rfl
  | some i =>
    rw [found] at closing
    have inside : 9 + i + 3 ≤ bytes.length := closing (9 + i + 3) rfl
    dsimp only
    rw [slice_eq (Nat.le_add_right 9 i) (by omega), pure_bind]
    rfl

theorem declarationAt_eq (within : 2 ≤ bytes.length) :
    declarationAt bytes = pure (readDeclaration bytes) := by
  rw [declarationAt, bracketEndAt_eq bytes (Nat.le_refl 1) within, pure_bind, readDeclaration,
    declarationEnd]
  cases bracketEndFrom 1 (bytes.drop 2) 2 <;> rfl

theorem declaresTypeAt_eq (bytes : Bytes) :
    declaresTypeAt bytes =
      pure (Bytes.sameLetters ((bytes.take 9).drop 2) (Bytes.ofAscii "DOCTYPE")) := by
  rw [declaresTypeAt]
  by_cases long : 9 ≤ bytes.length
  · rw [if_pos long, slice_eq (by decide) long, pure_bind]
  · rw [if_neg long]
    refine congrArg pure (Eq.symm (beq_eq_false_iff_ne.2 fun same => ?_))
    have lengths := congrArg List.length same
    have seven : (Bytes.ofAscii "DOCTYPE").length = 7 := by decide
    simp [seven] at lengths
    omega

theorem bangAt_eq (within : 2 ≤ bytes.length) : bangAt bytes = pure (readBang bytes) := by
  rw [bangAt, readBang]
  by_cases comment : (Bytes.ofAscii "<!--").isPrefixOf bytes = true
  · have long := (List.isPrefixOf_iff_prefix.1 comment).length_le
    rw [if_pos comment, if_pos comment]
    exact silentAt_eq long
  rw [if_neg comment, if_neg comment]
  by_cases verbatim : (Bytes.ofAscii "<![CDATA[").isPrefixOf bytes = true
  · have long := (List.isPrefixOf_iff_prefix.1 verbatim).length_le
    rw [if_pos verbatim, if_pos verbatim, verbatimAt_eq long]
  rw [if_neg verbatim, if_neg verbatim, declaresTypeAt_eq, pure_bind, declarationAt_eq within]
  split <;> rfl

theorem endTagAt_eq {rest : Bytes} (opens : bytes = opener :: slash :: rest) :
    endTagAt bytes = pure (readEndTag bytes) := by
  rw [endTagAt, readEndTag]
  cases found : bytes.indexOf? closer with
  | none => rfl
  | some i =>
    have inside := findIdx?_lt found
    have named : 2 ≤ i := by
      rw [opens, Bytes.indexOf?, List.findIdx?_cons, if_neg (by decide), List.findIdx?_cons,
        if_neg (by decide)] at found
      obtain ⟨j, behind, rfl⟩ := Option.map_eq_some_iff.1 found
      obtain ⟨k, -, rfl⟩ := Option.map_eq_some_iff.1 behind
      exact Nat.le_add_left 2 k
    dsimp only
    rw [slice_eq named (Nat.le_of_lt inside), pure_bind]

theorem startTokenAt_eq (content : Bytes) : startTokenAt content = pure (startToken content) := by
  have split (content : Bytes) :=
    slices_of_run (p := fun b => !isWideSpace b) (fun _ => rfl) content
  rw [startTokenAt, startToken]
  by_cases ends : (content.getLast? == some slash) = true
  · have filled : 1 ≤ content.length := by
      cases content with
      | nil => cases ends
      | cons => exact Nat.le_add_left 1 _
    rw [if_pos ends, if_pos ends, difference_eq filled, pure_bind,
      slice_front (Nat.sub_le _ 1), pure_bind, ← List.dropLast_eq_take]
    dsimp only
    rw [(split _).1, pure_bind, (split _).2, pure_bind]
  · rw [if_neg ends, if_neg ends, pure_bind]
    dsimp only
    rw [(split _).1, pure_bind, (split _).2, pure_bind]

theorem startTagAt_eq (filled : 1 ≤ bytes.length) :
    startTagAt bytes = pure (readStartTag bytes) := by
  rw [startTagAt, tagEndAt_eq bytes filled, pure_bind, readStartTag, ← tagEnd]
  cases found : tagEnd bytes with
  | none => rfl
  | some i =>
    obtain ⟨named, front, tail, rfl, length, -⟩ := tagEnd_local found
    have inside : i ≤ (front ++ tail).length := by
      rw [List.length_append]
      omega
    dsimp only
    rw [slice_eq named inside, pure_bind, startTokenAt_eq, pure_bind]

theorem textAt_eq (bytes : Bytes) : textAt bytes = pure (readText bytes) := by
  have text := (slices_of_run (p := (· != opener)) (fun _ => rfl) bytes).1
  have length : bytes.findIdx (· == opener) = (bytes.takeWhile (· != opener)).length := by
    rw [(run_eq (p := (· != opener)) (fun _ => rfl) bytes).1,
      List.length_take_of_le List.findIdx_le_length]
  rw [textAt, text, pure_bind, readText, length]

/-- A construct is read without a fault, and reading it ends. -/
theorem constructAt_eq (b : UInt8) (rest : Bytes) :
    constructAt (b :: rest) = pure (readConstruct (b :: rest)) := by
  rw [constructAt, byteAt_eq (show (b :: rest)[0]? = some b from rfl), pure_bind, readConstruct,
    List.head?_cons]
  by_cases opens : b = opener
  · subst opens
    rw [if_pos (by decide), if_pos (by decide)]
    cases rest with
    | nil => rfl
    | cons second rest =>
      dsimp only [List.getElem?_cons_succ, List.getElem?_cons_zero]
      have two : 2 ≤ (opener :: second :: rest).length := Nat.le_add_left 2 _
      by_cases ends : (second == slash) = true
      · rw [if_pos ends, if_pos ends, endTagAt_eq (by rw [eq_of_beq ends])]
      rw [if_neg ends, if_neg ends]
      by_cases declares : (second == bang) = true
      · rw [if_pos declares, if_pos declares, bangAt_eq two]
      rw [if_neg declares, if_neg declares]
      by_cases instructs : (second == question) = true
      · rw [if_pos instructs, if_pos instructs, silentAt_eq two]
      rw [if_neg instructs, if_neg instructs, startTagAt_eq (Nat.le_of_succ_le two)]
  · rw [if_neg (by simpa using opens), if_neg (by simpa using opens), textAt_eq, pure_bind]

end

end GraphScribe.Markup
