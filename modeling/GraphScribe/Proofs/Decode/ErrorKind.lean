import GraphScribe.Decode.Error
import GraphScribe.Proofs.Outcome

/-!
# Kinds of decoding errors

Decoders word an error differently and place it differently. Two errors count as the same if they
are of one kind and concern the same field.
-/

namespace GraphScribe

/-- The kinds of decoding errors. -/
inductive DecodeErrorKind where
  | missingRequiredField
  | invalidIntegerField
  | invalidFloatField
  | truncatedStream
  | emptyDocument
  | malformedMarkup
  | unreadableSource
deriving DecidableEq, Repr

namespace DecodeError

/-- The kind of an error. -/
def kind : DecodeError → DecodeErrorKind
  | .missingField _ _ => .missingRequiredField
  | .invalidInteger _ _ _ _ => .invalidIntegerField
  | .invalidNumber _ _ _ _ => .invalidFloatField
  | .truncated _ => .truncatedStream
  | .noRoot => .emptyDocument
  | .malformed _ _ => .malformedMarkup
  | .unreadable _ => .unreadableSource

/-- Two errors are of one kind and concern the same field, if any. -/
def Same (e e' : DecodeError) : Prop :=
  e.kind = e'.kind ∧ e.location? = e'.location?

instance (e e' : DecodeError) : Decidable (e.Same e') :=
  inferInstanceAs (Decidable (_ ∧ _))

theorem Same.refl (e : DecodeError) : e.Same e := ⟨rfl, rfl⟩

end DecodeError

/-- Two outcomes of decoding are the same value, or errors of one kind and place. -/
abbrev SameOutcome {α : Type} : Except DecodeError α → Except DecodeError α → Prop :=
  Alike DecodeError.Same Eq

theorem SameOutcome.refl {α : Type} (outcome : Except DecodeError α) :
    SameOutcome outcome outcome := by
  cases outcome with
  | error e => exact DecodeError.Same.refl e
  | ok a => rfl

theorem sameOutcome_comm {α : Type} {outcome outcome' : Except DecodeError α} :
    SameOutcome outcome outcome' ↔ SameOutcome outcome' outcome := by
  cases outcome with
  | error e =>
    cases outcome' with
    | error e' => exact and_congr eq_comm eq_comm
    | ok a => exact Iff.rfl
  | ok a =>
    cases outcome' with
    | error e' => exact Iff.rfl
    | ok a' => exact eq_comm

theorem SameOutcome.trans_alike {α β : Type} {R : α → β → Prop} {x y : Except DecodeError α}
    {z : Except DecodeError β} (first : SameOutcome x y) (second : Alike DecodeError.Same R y z) :
    Alike DecodeError.Same R x z := by
  cases y with
  | error e =>
    cases x with
    | ok a => exact first.elim
    | error e₁ =>
      cases z with
      | ok a => exact second.elim
      | error e₂ => exact ⟨first.1.trans second.1, first.2.trans second.2⟩
  | ok a =>
    cases x with
    | error e => exact first.elim
    | ok a₁ =>
      have equal : a₁ = a := first
      exact equal ▸ second

theorem SameOutcome.trans {α : Type} {x y z : Except DecodeError α} (first : SameOutcome x y)
    (second : SameOutcome y z) : SameOutcome x z :=
  first.trans_alike second

theorem SameOutcome.alike_iff {α β : Type} {R : α → β → Prop} {x y : Except DecodeError α}
    {z : Except DecodeError β} (same : SameOutcome x y) :
    Alike DecodeError.Same R x z ↔ Alike DecodeError.Same R y z :=
  ⟨(sameOutcome_comm.1 same).trans_alike, same.trans_alike⟩

/-- Equal steps after the same outcome give the same outcome. -/
theorem SameOutcome.bind {α β : Type} {x y : Except DecodeError α} (first : SameOutcome x y)
    {f g : α → Except DecodeError β} (next : ∀ a, SameOutcome (f a) (g a)) :
    SameOutcome (x >>= f) (y >>= g) :=
  Alike.bind first fun a _ same => same ▸ next a

/-- Both outcomes are errors, of one kind and place. -/
abbrev BothFail {α β : Type} : Except DecodeError α → Except DecodeError β → Prop :=
  Alike DecodeError.Same fun _ _ => False

/-- Outcomes that never are one value can only be the same error. -/
theorem sameOutcome_iff_bothFail {α : Type} {x y : Except DecodeError α}
    (apart : ∀ a b, x = .ok a → y = .ok b → a ≠ b) : SameOutcome x y ↔ BothFail x y := by
  cases x with
  | error e =>
    cases y with
    | error e' => exact Iff.rfl
    | ok b => exact Iff.rfl
  | ok a =>
    cases y with
    | error e' => exact Iff.rfl
    | ok b => exact iff_false_intro (apart a b rfl rfl)

end GraphScribe
