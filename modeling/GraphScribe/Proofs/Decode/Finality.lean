import GraphScribe.Proofs.Decode.Places
import GraphScribe.Proofs.Markup.Locality

/-!
# Errors that stand

An error that does not come from the end of a document is the error of every longer document that
begins with it: the constructs up to the one that is refused are read again, each from its own bytes.

* `Runs.append`: a run that is refused is a run of every longer document.
* `Streaming.decode_append`: the same for decoding.
-/

namespace GraphScribe

open Markup

/-- The error may come from where a document ends: with elements open or inside a construct, before
any element, or inside the opener of a declaration. -/
inductive DecodeError.FromEnd : DecodeError → Prop
  | truncated (depth : Nat) : FromEnd (.truncated depth)
  | noRoot : FromEnd .noRoot
  | unknownDeclaration (position : Nat) : FromEnd (.malformed position .unknownDeclaration)

variable {document : Bytes} {p : Place} {offset : Nat} {outcome : Except DecodeError Graph}
  {e : DecodeError}

theorem fromEnd_of_result {ε φ : Type} {s : Progress ε φ} (ended : s.result.graph = .error e) :
    e.FromEnd := by
  unfold Progress.result at ended
  split at ended
  · cases ended
    exact .truncated s.depth
  · split at ended
    · cases ended
    · cases ended
      exact .noRoot

theorem fromEnd_of_fault (p : Place) (offset : Nat) (fault : ConstructFault) :
    (p.faultError offset fault).FromEnd := by
  cases fault with
  | unclosed => exact .truncated _
  | unknownDeclaration => exact .unknownDeclaration offset

theorem drop_append_of_cons {b : UInt8} {rest : Bytes} (left : document.drop offset = b :: rest)
    (more : Bytes) : (document ++ more).drop offset = b :: (rest ++ more) := by
  have inside : offset ≤ document.length :=
    Nat.le_of_lt (Nat.lt_of_not_le fun past => by
      rw [List.drop_eq_nil_of_le past] at left
      cases left)
  rw [List.drop_append_of_le_length inside, left, List.cons_append]

/-- A construct that is refused is no text. -/
theorem opener_of_refused {b : UInt8} {rest : Bytes} {construct : Construct} {n stop : Nat}
    (constructed : readConstruct (b :: rest) = .ok (construct, n))
    (refused : p.read stop construct = .error e) : (b :: rest).head? = some opener := by
  by_cases opens : (b :: rest).head? = some opener
  · exact opens
  · cases (readConstruct_plain opens).symm.trans constructed
    cases refused

/-- A run that ends in an error which does not come from the end of the document is a run of every
longer document. -/
theorem Runs.append (runs : Runs document p offset outcome) (more : Bytes)
    (failed : outcome = .error e) (stands : ¬ e.FromEnd) :
    Runs (document ++ more) p offset (.error e) := by
  induction runs with
  | ended left => exact absurd (fromEnd_of_result failed) stands
  | @faulty p offset b rest fault left faulty =>
    cases failed
    exact absurd (fromEnd_of_fault p offset fault) stands
  | refused left constructed refused =>
    cases failed
    have opens := opener_of_refused constructed refused
    exact .refused (drop_append_of_cons left more)
      (readConstruct_append (List.cons_ne_nil _ _) constructed (.inl opens) more) refused
  | @step p p' offset n b rest construct outcome left constructed next later ih =>
    have within := readConstruct_le (List.cons_ne_nil _ _) constructed
    rcases Nat.lt_or_eq_of_le within with inside | whole
    · exact .step (drop_append_of_cons left more)
        (readConstruct_append (List.cons_ne_nil _ _) constructed (.inr inside) more) next (ih failed)
    · -- Nothing is left after this construct, so the error would come from the end.
      have nothing : document.drop (offset + n) = [] := by
        rw [← List.drop_drop, left, whole, List.drop_length]
      cases later with
      | ended _ => exact absurd (fromEnd_of_result failed) stands
      | faulty left' _ => cases nothing.symm.trans left'
      | refused left' _ _ => cases nothing.symm.trans left'
      | step left' _ _ _ => cases nothing.symm.trans left'

namespace Streaming

/-- A document that becomes one with a byte order mark by what is added to it has no markup. -/
theorem bodyOffset_append (document more : Bytes) :
    bodyOffset (document ++ more) = bodyOffset document ∨ decode document = .error .noRoot := by
  unfold bodyOffset
  by_cases marked : byteOrderMark <+: document
  · have marked' := marked.trans (List.prefix_append document more)
    rw [if_pos (List.isPrefixOf_iff_prefix.2 marked), if_pos (List.isPrefixOf_iff_prefix.2 marked')]
    exact .inl rfl
  · by_cases later : byteOrderMark <+: document ++ more
    · right
      have short : document <+: byteOrderMark :=
        (List.prefix_or_prefix_of_prefix later (List.prefix_append document more)).resolve_left marked
      rcases document with _ | ⟨b₁, _ | ⟨b₂, _ | ⟨b₃, rest⟩⟩⟩
      · decide +kernel
      · obtain ⟨rfl, -⟩ := List.cons_prefix_cons.1 short
        decide +kernel
      · obtain ⟨rfl, others⟩ := List.cons_prefix_cons.1 short
        obtain ⟨rfl, -⟩ := List.cons_prefix_cons.1 others
        decide +kernel
      · have whole := short.eq_of_length_le (Nat.le_add_left 3 _)
        exact absurd (whole ▸ List.prefix_refl _) marked
    · rw [if_neg fun yes => marked (List.isPrefixOf_iff_prefix.1 yes),
        if_neg fun yes => later (List.isPrefixOf_iff_prefix.1 yes)]
      exact .inl rfl

/-- An error that does not come from the end of a document stands, whatever is added to it. -/
theorem decode_append {document : Bytes} {e : DecodeError} (failed : decode document = .error e)
    (inside : ∀ depth, e ≠ .truncated depth) (rooted : e ≠ .noRoot)
    (known : ∀ position, e ≠ .malformed position .unknownDeclaration) (more : Bytes) :
    decode (document ++ more) = .error e := by
  have stands : ¬ e.FromEnd := by
    rintro (depth | - | position)
    · exact inside depth rfl
    · exact rooted rfl
    · exact known position rfl
  rcases bodyOffset_append document more with same | rootless
  · have runs := (runs_decode document).append more failed stands
    rw [← same] at runs
    exact decode_of_runs runs
  · rw [failed] at rootless
    exact absurd (Except.error.inj rootless) rooted

/-- A node without a name is reported, although an end tag that matches nothing follows. -/
theorem decode_append_missingField :
    let document := Bytes.ofAscii "<g><node/>"
    let e : DecodeError := .missingField .node .id
    (decode document = .error e ∧ (∀ depth, e ≠ .truncated depth) ∧ e ≠ .noRoot ∧
      ∀ position, e ≠ .malformed position .unknownDeclaration) ∧
    decode (document ++ Bytes.ofAscii "</x><!<") = .error e := by
  intro document e
  have failed : decode document = .error e := by decide +kernel
  have inside : ∀ depth, e ≠ .truncated depth := by simp [e]
  have rooted : e ≠ .noRoot := by simp [e]
  have known : ∀ position, e ≠ .malformed position .unknownDeclaration := by simp [e]
  exact ⟨⟨failed, inside, rooted, known⟩, decode_append failed inside rooted known _⟩

end Streaming
end GraphScribe
