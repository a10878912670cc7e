import Mathlib
import Magnetofluid.Failure
import Magnetofluid.Initial.Basic
import Magnetofluid.Linear.Vector

/-!
# Exact arithmetic

The real numbers as a number system of the library.  A definition that the program runs on floats is read over
`ℝ` when a statement speaks of exact arithmetic: sums are sums, a quotient is the quotient, and a comparison decides
the order of the reals.  Division by zero gives zero, as it does in all of Mathlib.

* `Scalar.ofInt_real`, `Scalar.max_real`: what is computed by cases is what it is meant to be.
* `sumFin_eq_sum`: the sum over all positions is the sum of a finite type.
* `Number.usable_real`, `Number.isPositive_iff`: a number as it is written against the real number it stands for.
-/

namespace Magnetofluid

noncomputable instance : Elementary ℝ where
  toZero := inferInstance
  toOne := inferInstance
  toAdd := inferInstance
  toSub := inferInstance
  toMul := inferInstance
  toDiv := inferInstance
  toNeg := inferInstance
  toNatCast := inferInstance
  toOfScientific := inferInstance
  sqrt := Real.sqrt
  abs a := |a|
  lt a b := decide (a < b)
  le a b := decide (a ≤ b)
  eq a b := decide (a = b)
  roundoff := 0
  pi := Real.pi
  sin := Real.sin
  cos := Real.cos
  cosh := Real.cosh
  log := Real.log

namespace Scalar

@[simp] theorem lt_real (a b : ℝ) : lt a b = decide (a < b) := rfl

@[simp] theorem le_real (a b : ℝ) : le a b = decide (a ≤ b) := rfl

@[simp] theorem eq_real (a b : ℝ) : eq a b = decide (a = b) := rfl

@[simp] theorem isZero_real (a : ℝ) : isZero a = decide (a = 0) := rfl

@[simp] theorem sqrt_real (a : ℝ) : sqrt a = Real.sqrt a := rfl

@[simp] theorem abs_real (a : ℝ) : Scalar.abs a = |a| := rfl

theorem max_real (a b : ℝ) : Scalar.max a b = Max.max a b := by
  unfold Scalar.max
  rw [lt_real]
  split_ifs with h
  · exact (max_eq_right (of_decide_eq_true h).le).symm
  · exact (max_eq_left (not_lt.1 fun h' => h (decide_eq_true h'))).symm

@[simp] theorem ofInt_real (i : ℤ) : (Scalar.ofInt i : ℝ) = i := by
  cases i with
  | ofNat k => rfl
  | negSucc k => rw [Int.cast_negSucc]; rfl

end Scalar

/-! ### Numbers as they are written -/

namespace Number

theorem isPositive_iff (x : Number ℝ) : x.isPositive = true ↔ 0 < x.toScalar := by
  cases x with
  | int i => simp [isPositive, toScalar]
  | real x => exact decide_eq_true_iff

/-- No number is beyond the range of the real numbers. -/
theorem usable_real (x : Number ℝ) : x.usable = .ok x.toScalar := by
  cases x with
  | int i => simp [usable, toScalar]
  | real x => rfl

end Number

/-! ### Sums -/

/-- A fold that adds the value of each item to a start is the start and the sum of all values. -/
theorem foldl_add_eq {α : Type} (f : α → ℝ) (l : List α) (s : ℝ) :
    l.foldl (fun s a => s + f a) s = s + (l.map f).sum := by
  induction l generalizing s with
  | nil => simp
  | cons a l ih => rw [List.foldl_cons, ih, List.map_cons, List.sum_cons, add_assoc]

theorem sumFin_eq_sum (n : ℕ) (f : Fin n → ℝ) : sumFin n f = ∑ i, f i := by
  have h := foldl_add_eq f (List.finRange n) 0
  rw [zero_add, ← List.ofFn_eq_map, List.sum_ofFn] at h
  exact (Fin.foldl_eq_foldl_finRange _ _).trans h

end Magnetofluid
