import Mathlib
import Magnetofluid.Scalar

/-!
# Comparisons of floats

A NaN is neither below, above nor equal to anything, so that the negation of a comparison is not the opposite
comparison.

* `Float.Model.UnpackedFloat.compare_eq_none_iff`: floats have an order unless one of them is a NaN.
* `Float.not_lt_iff`, `Float.not_le_iff`: what may hold when a comparison fails.
-/

namespace Float

namespace Model.UnpackedFloat

variable (x y : UnpackedFloat)

theorem compare_eq_none_iff : x.compare y = none ↔ x.isNaN ∨ y.isNaN := by
  fun_cases UnpackedFloat.compare x y <;> simp_all [isNaN]

theorem sign_compare_swap (s t : Sign) : compare t s = (compare s t).swap := by
  cases s <;> cases t <;> rfl

/-- Magnitudes are compared by their exponents, then by their mantissas. -/
theorem magnitude_compare_swap (e f : ℤ) (m n : ℕ) :
    (compare f e).then (compare n m) = ((compare e f).then (compare m n)).swap := by
  rw [Ordering.swap_then, ← Std.OrientedOrd.eq_swap, ← Std.OrientedOrd.eq_swap]

theorem compare_swap : y.compare x = (x.compare y).map Ordering.swap := by
  fun_cases UnpackedFloat.compare x y with
  | case1 => exact (compare_eq_none_iff y .notANumber).2 (.inr rfl)
  | case3 s t => exact congrArg some (sign_compare_swap s t)
  | case13 m e _ n f _ =>
    rw [UnpackedFloat.compare, Option.map_some, magnitude_compare_swap e f m n]
  | case16 m e _ n f _ => exact congrArg some (magnitude_compare_swap e f m n)
  | _ => simp_all [UnpackedFloat.compare]

end Model.UnpackedFloat

variable {a b : Float}

theorem lt_iff_compare : a < b ↔ a.toModel.compare b.toModel = some .lt := by
  show decide (a.toModel < b.toModel) = true ↔ _
  rw [decide_eq_true_iff]
  exact beq_iff_eq

theorem le_iff_compare : a ≤ b ↔ a.toModel.compare b.toModel = some .lt ∨ a.toModel.compare b.toModel = some .eq := by
  show decide (a.toModel ≤ b.toModel) = true ↔ _
  rw [decide_eq_true_iff]
  show (a.toModel.compare b.toModel).any _ = true ↔ _
  cases a.toModel.compare b.toModel with
  | none => simp
  | some o => cases o <;> simp

theorem isNaN_or_isNaN_iff_compare : a.isNaN ∨ b.isNaN ↔ a.toModel.compare b.toModel = none :=
  (Model.UnpackedFloat.compare_eq_none_iff _ _).symm

theorem compare_swap (a b : Float) : b.toModel.compare a.toModel = (a.toModel.compare b.toModel).map Ordering.swap :=
  Model.UnpackedFloat.compare_swap _ _

/-- What has an order has numbers on both sides. -/
theorem isNaN_eq_false_of_le (h : a ≤ b) : a.isNaN = false ∧ b.isNaN = false := by
  rw [← Bool.not_eq_true, ← Bool.not_eq_true, ← not_or, isNaN_or_isNaN_iff_compare]
  intro hnone
  rw [le_iff_compare, hnone] at h
  simp at h

theorem le_of_lt (h : a < b) : a ≤ b := le_iff_compare.2 (.inl (lt_iff_compare.1 h))

theorem not_lt_iff : ¬ a < b ↔ b ≤ a ∨ a.isNaN ∨ b.isNaN := by
  rw [lt_iff_compare, le_iff_compare, isNaN_or_isNaN_iff_compare, compare_swap a b]
  cases a.toModel.compare b.toModel with
  | none => simp
  | some o => cases o <;> simp

theorem not_le_iff : ¬ a ≤ b ↔ b < a ∨ a.isNaN ∨ b.isNaN := by
  rw [lt_iff_compare, le_iff_compare, isNaN_or_isNaN_iff_compare, compare_swap a b]
  cases a.toModel.compare b.toModel with
  | none => simp
  | some o => cases o <;> simp

end Float
