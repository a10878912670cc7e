import Mathlib
import Magnetofluid.Proofs.Exact.Arithmetic

/-!
# Partial arithmetic

The real numbers with the results that do not exist left out: a quotient by zero, the logarithm of a number that is not
positive and the square root of a negative number are undefined, and so is whatever is computed from them.  A definition
of the library that has a value in this number system divides by nothing that is zero and takes logarithms of positive
numbers only; Mathlib's totalised operations would hide that.
-/

namespace Magnetofluid

/-- A real number, or no result. -/
inductive PartialReal
  | undefined
  | value (x : ℝ)

namespace PartialReal

open Elementary

def bind : PartialReal → (ℝ → PartialReal) → PartialReal
  | undefined, _ => undefined
  | value x, f => f x

/-- What two numbers have to do with each other, if there are both. -/
def compare (r : ℝ → ℝ → Bool) : PartialReal → PartialReal → Bool
  | value x, value y => r x y
  | _, _ => false

noncomputable instance : Elementary PartialReal where
  zero := value 0
  one := value 1
  add a b := a.bind fun x => b.bind fun y => value (x + y)
  sub a b := a.bind fun x => b.bind fun y => value (x - y)
  mul a b := a.bind fun x => b.bind fun y => value (x * y)
  div a b := a.bind fun x => b.bind fun y => if y = 0 then undefined else value (x / y)
  neg a := a.bind fun x => value (-x)
  natCast n := value n
  ofScientific m negative e := value (OfScientific.ofScientific m negative e)
  sqrt a := a.bind fun x => if 0 ≤ x then value (Real.sqrt x) else undefined
  abs a := a.bind fun x => value |x|
  lt := compare fun x y => decide (x < y)
  le := compare fun x y => decide (x ≤ y)
  eq := compare fun x y => decide (x = y)
  roundoff := value 0
  pi := value Real.pi
  sin a := a.bind fun x => value (Real.sin x)
  cos a := a.bind fun x => value (Real.cos x)
  cosh a := a.bind fun x => value (Real.cosh x)
  log a := a.bind fun x => if 0 < x then value (Real.log x) else undefined

@[simp] theorem zero_eq : (0 : PartialReal) = value 0 := rfl

@[simp] theorem one_eq : (1 : PartialReal) = value 1 := rfl

@[simp] theorem ofScientific_eq (m : ℕ) (negative : Bool) (e : ℕ) :
    (OfScientific.ofScientific m negative e : PartialReal) = value (OfScientific.ofScientific m negative e) := rfl

@[simp] theorem value_add (x y : ℝ) : value x + value y = value (x + y) := rfl

@[simp] theorem value_sub (x y : ℝ) : value x - value y = value (x - y) := rfl

@[simp] theorem value_mul (x y : ℝ) : value x * value y = value (x * y) := rfl

@[simp] theorem value_neg (x : ℝ) : -value x = value (-x) := rfl

theorem value_div (x : ℝ) {y : ℝ} (hy : y ≠ 0) : value x / value y = value (x / y) := if_neg hy

@[simp] theorem pi_eq : (pi : PartialReal) = value pi := rfl

@[simp] theorem sin_value (x : ℝ) : sin (value x) = value (sin x) := rfl

@[simp] theorem cos_value (x : ℝ) : cos (value x) = value (cos x) := rfl

@[simp] theorem cosh_value (x : ℝ) : cosh (value x) = value (cosh x) := rfl

theorem log_value {x : ℝ} (hx : 0 < x) : log (value x) = value (log x) := if_pos hx

end PartialReal

end Magnetofluid
