import GraphScribe.Proofs.Markup.Layout
import GraphScribe.Proofs.Markup.Locality

/-!
# Open elements along a document

The names of the elements that are open after some constructs, and bytes that leave these as they
are: comments, instructions and whole elements.

* `openNames`: the names of the elements that are open at an offset.
* `Leads`: bytes that are read construct by construct, with the open elements before and after.
* `IsElement`: bytes that are one element, whatever it holds.
* `readConstruct_comment`, `readConstruct_instruction`: a body without its terminator is read as a
  whole.
-/

namespace GraphScribe.Markup

/-- The names of the open elements, the innermost first, after a construct. -/
def Construct.nest (names : List Bytes) : Construct → List Bytes
  | .token (.start name _ false) => name :: names
  | .token (.finish _) => names.tail
  | _ => names

/-- The names of the elements that are open at an offset, the innermost first, where some are open
before the constructs that are given. -/
def openNames (offset : Nat) (names : List Bytes) : List Placed → List Bytes
  | [] => names
  | s :: rest => if s.stop ≤ offset then openNames offset (s.construct.nest names) rest else names

/-- Nothing that ends later is read before an offset. -/
theorem openNames_behind {offset : Nat} {layout : List Placed} (names : List Bytes)
    (behind : ∀ s ∈ layout, offset < s.stop) : openNames offset names layout = names := by
  cases layout with
  | nil => rfl
  | cons s rest => exact if_neg (Nat.not_le_of_lt (behind s List.mem_cons_self))

/-- The bytes `front`, which stand before the bytes `rest`, are read construct by construct. The
names of the open elements before and after them are given. -/
inductive Leads (rest : Bytes) : List Bytes → Bytes → List Bytes → Prop
  | here (names : List Bytes) : Leads rest names [] names
  | construct {names after : List Bytes} {front : Bytes} {construct : Construct} {n : Nat}
      (filled : front ≠ []) (read : readConstruct (front ++ rest) = .ok (construct, n))
      (within : n ≤ front.length) (later : Leads rest (construct.nest names) (front.drop n) after) :
      Leads rest names front after

/-! ## Elements -/

/-- The bytes close the elements whose names are given, the innermost first, and nothing else but
what they open. -/
inductive Closes : List Bytes → Bytes → Prop
  | done : Closes [] []
  | construct {names : List Bytes} {bytes : Bytes} {construct : Construct} {n : Nat}
      (inside : names ≠ []) (filled : bytes ≠ []) (read : readConstruct bytes = .ok (construct, n))
      (fits : ∀ name, construct = .token (.finish name) → names.head? = some name)
      (later : Closes (construct.nest names) (bytes.drop n)) : Closes names bytes

/-- The bytes are one element: a start tag with this name, and what closes it, unless it is
empty. -/
def IsElement (name bytes : Bytes) : Prop :=
  ∃ attributes isEmpty n,
    readConstruct bytes = .ok (.token (.start name attributes isEmpty), n) ∧
      Closes (if isEmpty then [] else [name]) (bytes.drop n)

variable {names : List Bytes} {bytes : Bytes} {name : Bytes}

theorem Closes.filled (closes : Closes names bytes) (inside : names ≠ []) : bytes ≠ [] := by
  cases closes with
  | done => exact absurd rfl inside
  | construct _ filled _ _ _ => exact filled

/-- A construct that is a tag begins like one. -/
theorem opener_of_construct {construct : Construct} {n : Nat}
    (read : readConstruct bytes = .ok (construct, n))
    (tag : ∀ piece, construct ≠ .token (.piece piece)) : bytes.head? = some opener := by
  by_cases opens : bytes.head? = some opener
  · exact opens
  · cases (readConstruct_plain opens).symm.trans read
    exact absurd rfl (tag _)

theorem IsElement.opens (element : IsElement name bytes) : bytes.head? = some opener := by
  obtain ⟨attributes, isEmpty, n, read, -⟩ := element
  exact opener_of_construct read fun piece same => by cases same

/-- In bytes that close an element no construct depends on what follows these bytes. -/
theorem Closes.read_append {construct : Construct} {n : Nat} (inside : names ≠ [])
    (read : readConstruct bytes = .ok (construct, n)) (filled : bytes ≠ [])
    (later : Closes (construct.nest names) (bytes.drop n)) (more : Bytes) :
    readConstruct (bytes ++ more) = .ok (construct, n) := by
  refine readConstruct_append filled read ?_ more
  by_cases opens : bytes.head? = some opener
  · exact .inl opens
  · -- A text leaves elements open, so there are bytes behind it.
    cases (readConstruct_plain opens).symm.trans read
    have left := later.filled inside
    exact .inr (Nat.lt_of_not_le fun short => left (List.drop_eq_nil_of_le short))

/-! ## Comments and instructions -/

/-- A comment. -/
def comment (body : Bytes) : Bytes := Bytes.ofAscii "<!--" ++ body ++ Bytes.ofAscii "-->"

/-- An instruction. -/
def instruction (body : Bytes) : Bytes := Bytes.ofAscii "<?" ++ body ++ Bytes.ofAscii "?>"

/-- A terminator without a border is first found where it stands, behind bytes that do not hold
it. -/
theorem seek_behind {pattern : Bytes} (filled : pattern ≠ [])
    (borderless : ∀ k < pattern.length, 0 < k → ¬ pattern.drop k <+: pattern) (more : Bytes)
    (body : Bytes) : ∀ (offset : Nat), ¬ pattern <:+: body →
      Bytes.seek (pattern.isPrefixOf ·) (body ++ pattern ++ more) offset =
        some (offset + body.length) := by
  induction body with
  | nil =>
    intro offset _
    obtain ⟨b, rest, rfl⟩ := List.exists_cons_of_ne_nil filled
    exact if_pos (List.isPrefixOf_iff_prefix.2 (List.prefix_append (b :: rest) more))
  | cons b body ih =>
    intro offset free
    have apart : ¬ pattern <+: b :: body ++ pattern ++ more := by
      intro begins
      rw [List.append_assoc] at begins
      by_cases fits : pattern.length ≤ (b :: body).length
      · exact free (List.prefix_of_prefix_length_le begins (List.prefix_append _ _) fits).isInfix
      · -- The occurrence would reach into the terminator, whose beginning were its end.
        have short := Nat.lt_of_not_le fits
        obtain ⟨tail, whole⟩ := List.prefix_of_prefix_length_le (List.prefix_append _ _) begins
          (Nat.le_of_lt short)
        have border : pattern.drop (b :: body).length = tail := by
          rw [← whole, List.drop_left]
        rw [← whole, List.prefix_append_right_inj] at begins
        refine borderless (b :: body).length short (Nat.succ_pos _) ?_
        rw [border]
        refine List.prefix_of_prefix_length_le begins (whole ▸ List.prefix_append pattern more) ?_
        rw [← whole, List.length_append]
        exact Nat.le_add_left _ _
    show (if pattern.isPrefixOf (b :: body ++ pattern ++ more) then _ else _) = _
    rw [if_neg fun yes => apart (List.isPrefixOf_iff_prefix.1 yes)]
    have behind : ¬ pattern <:+: body :=
      fun within => free (within.trans (List.suffix_cons b body).isInfix)
    refine (ih (offset + 1) behind).trans ?_
    rw [List.length_cons, Nat.add_assoc, Nat.add_comm 1]

/-- A silent construct ends with the first terminator behind its opening. -/
theorem readSilent_behind {opening terminator : String} {start : Nat}
    (filled : Bytes.ofAscii terminator ≠ [])
    (borderless : ∀ k < (Bytes.ofAscii terminator).length, 0 < k →
      ¬ (Bytes.ofAscii terminator).drop k <+: Bytes.ofAscii terminator)
    (length : (Bytes.ofAscii opening).length = start) {body : Bytes}
    (free : ¬ Bytes.ofAscii terminator <:+: body) (more : Bytes) :
    readSilent terminator start
        (Bytes.ofAscii opening ++ body ++ Bytes.ofAscii terminator ++ more) =
      .ok (.silent, (Bytes.ofAscii opening ++ body ++ Bytes.ofAscii terminator).length) := by
  have skipped : (Bytes.ofAscii opening ++ body ++ Bytes.ofAscii terminator ++ more).drop start =
      body ++ Bytes.ofAscii terminator ++ more := by
    rw [List.append_assoc, List.append_assoc, List.drop_left' length, ← List.append_assoc]
  unfold readSilent closedBy Bytes.offsetOf?
  dsimp only
  rw [skipped, seek_behind filled borderless more body 0 free, Option.map_some, List.length_append,
    List.length_append, length, Nat.zero_add]

/-- A comment is read as a whole. -/
theorem readConstruct_comment {body : Bytes} (free : ¬ Bytes.ofAscii "-->" <:+: body)
    (more : Bytes) :
    readConstruct (comment body ++ more) = .ok (.silent, (comment body).length) :=
  readSilent_behind (by decide) (by decide) (show (Bytes.ofAscii "<!--").length = 4 by decide) free
    more

/-- An instruction is read as a whole. -/
theorem readConstruct_instruction {body : Bytes} (free : ¬ Bytes.ofAscii "?>" <:+: body)
    (more : Bytes) :
    readConstruct (instruction body ++ more) = .ok (.silent, (instruction body).length) :=
  readSilent_behind (by decide) (by decide) (show (Bytes.ofAscii "<?").length = 2 by decide) free
    more

end GraphScribe.Markup
