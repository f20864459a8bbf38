import GraphScribe.Proofs.Number.Rounding
import GraphScribe.Template.CostFunction

/-!
# What a cost function does to a cost

A cost function multiplies and then rounds. The product is the number nearest to the exact one, the
rounding to an integer is exact, and neither changes a sign. A ratio of one changes nothing.

* `Rounding.rounds_apply`: what each mode makes of a number.
* `CostFunction.apply_finite`: what a ratio and a mode make of a cost.
-/

namespace GraphScribe

open Binary64

/-- What a mode makes of a number. Infinities and NaN stay. -/
inductive Rounding.Rounds : Rounding → Binary64 → Binary64 → Prop where
  | none {x : Binary64} : Rounds .none x x
  | nan {r : Rounding} : Rounds r .nan .nan
  | infinite {r : Rounding} {negative : Bool} : Rounds r (.infinite negative) (.infinite negative)
  | floor {x y : Finite} (sign : y.negative = x.negative) (value : y.value = ⌊x.value⌋) :
      Rounds .floor (.finite x) (.finite y)
  | ceil {x y : Finite} (sign : y.negative = x.negative) (value : y.value = ⌈x.value⌉) :
      Rounds .ceil (.finite x) (.finite y)
  /-- Halves are rounded away from zero. -/
  | nearest {x y : Finite} (sign : y.negative = x.negative)
      (magnitude : y.magnitude = ⌊x.magnitude + 1 / 2⌋) : Rounds .nearest (.finite x) (.finite y)

theorem Rounding.rounds_apply (r : Rounding) (x : Binary64) : r.Rounds x (r.apply x) := by
  cases x with
  | nan => cases r <;> exact .nan
  | infinite => cases r <;> exact .infinite
  | finite x =>
    cases r with
    | none => exact .none
    | floor =>
      obtain ⟨y, is, sign, value⟩ := value_floor x
      rw [apply, is]
      exact .floor sign value
    | nearest =>
      obtain ⟨y, is, sign, magnitude⟩ := magnitude_round x
      rw [apply, is]
      exact .nearest sign magnitude
    | ceil =>
      obtain ⟨y, is, sign, value⟩ := value_ceil x
      rw [apply, is]
      exact .ceil sign value

/-- A finite cost is scaled to the number nearest to its product with the ratio, and that is rounded
as the mode demands. -/
theorem CostFunction.apply_finite {f : CostFunction} {cost ratio : Finite}
    (finite : f.ratio = .finite ratio) :
    ∃ product, IsNearest (cost.negative != ratio.negative) (cost.magnitude * ratio.magnitude)
        product ∧ f.rounding.Rounds product (f.apply (.finite cost)) := by
  refine ⟨_, isNearest_mul cost ratio, ?_⟩
  rw [apply, finite]
  exact f.rounding.rounds_apply _

/-- One is the neutral factor. -/
theorem Binary64.times_one (x : Binary64) : x * one = x := by
  cases x with
  | nan => rfl
  | infinite negative => cases negative <;> rfl
  | finite x =>
    have size : Finite.magnitude ⟨false, Nat.pow 2 52, -52, by decide⟩ = 1 := by
      norm_num [Finite.magnitude]
    have nearest := isNearest_mul x ⟨false, Nat.pow 2 52, -52, by decide⟩
    rw [size, mul_one, Bool.bne_false] at nearest
    exact nearest.eq_of_magnitude

/-- The cost function that stands for none changes no cost. -/
theorem CostFunction.identity_apply (cost : Binary64) : identity.apply cost = cost :=
  cost.times_one

end GraphScribe
