/-!
# Outcomes

Two computations may end alike although their values and errors differ in type or in detail.
-/

namespace GraphScribe

variable {ε ε' α α' β β' : Type} {E : ε → ε' → Prop} {R : α → β → Prop} {S : α' → β' → Prop}

/-- Two outcomes are alike: both are errors that `E` relates, or both are values that `R` relates. -/
def Alike (E : ε → ε' → Prop) (R : α → β → Prop) : Except ε α → Except ε' β → Prop
  | .ok a, .ok b => R a b
  | .error e, .error e' => E e e'
  | _, _ => False

instance [∀ e e', Decidable (E e e')] [∀ a b, Decidable (R a b)] (x : Except ε α)
    (y : Except ε' β) : Decidable (Alike E R x y) :=
  match x, y with
  | .ok a, .ok b => inferInstanceAs (Decidable (R a b))
  | .error e, .error e' => inferInstanceAs (Decidable (E e e'))
  | .ok _, .error _ => .isFalse id
  | .error _, .ok _ => .isFalse id

/-- A step that gives a value follows a step that gave one. -/
theorem exists_of_bind {x : Except ε α} {f : α → Except ε α'} {b : α'} (found : x >>= f = .ok b) :
    ∃ a, x = .ok a ∧ f a = .ok b := by
  cases x with
  | error e => cases found
  | ok a => exact ⟨a, rfl, found⟩

namespace Alike

variable {x : Except ε α} {y : Except ε' β}

/-- Alike steps after alike outcomes, where it is known what the first one was. -/
theorem bind_of {f : α → Except ε α'} {g : β → Except ε' β'} (first : Alike E R x y)
    (next : ∀ a b, x = .ok a → R a b → Alike E S (f a) (g b)) :
    Alike E S (x.bind f) (y.bind g) := by
  cases x with
  | error e =>
    cases y with
    | error e' => exact first
    | ok b => exact first.elim
  | ok a =>
    cases y with
    | error e' => exact first.elim
    | ok b => exact next a b rfl first

/-- Alike steps after alike outcomes. -/
theorem bind {f : α → Except ε α'} {g : β → Except ε' β'} (first : Alike E R x y)
    (next : ∀ a b, R a b → Alike E S (f a) (g b)) : Alike E S (x.bind f) (y.bind g) :=
  first.bind_of fun a b _ => next a b

theorem imp {R' : α → β → Prop} (first : Alike E R x y) (weaker : ∀ a b, R a b → R' a b) :
    Alike E R' x y := by
  cases x with
  | error e =>
    cases y with
    | error e' => exact first
    | ok b => exact first.elim
  | ok a =>
    cases y with
    | error e' => exact first.elim
    | ok b => exact weaker a b first

theorem map {f : α → α'} {g : β → β'} (first : Alike E R x y)
    (next : ∀ a b, R a b → S (f a) (g b)) : Alike E S (x.map f) (y.map g) := by
  cases x with
  | error e =>
    cases y with
    | error e' => exact first
    | ok b => exact first.elim
  | ok a =>
    cases y with
    | error e' => exact first.elim
    | ok b => exact next a b first

/-- Errors may be put in other words. -/
theorem mapError_iff {ε₁ ε₂ : Type} {E' : ε₁ → ε₂ → Prop} {f : ε → ε₁} {g : ε' → ε₂}
    (errors : ∀ e e', E' (f e) (g e') ↔ E e e') :
    Alike E' R (x.mapError f) (y.mapError g) ↔ Alike E R x y := by
  cases x with
  | error e =>
    cases y with
    | error e' => exact errors e e'
    | ok b => exact Iff.rfl
  | ok a =>
    cases y with
    | error e' => exact Iff.rfl
    | ok b => exact Iff.rfl

theorem of_map {f : α → α'} {T : α' → β → Prop} (mapped : Alike E T (x.map f) y) :
    Alike E (fun a b => T (f a) b) x y := by
  cases x with
  | error e => cases y <;> exact mapped
  | ok a => cases y <;> exact mapped

end Alike
end GraphScribe
