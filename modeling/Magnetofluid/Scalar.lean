/-!
# Number systems of the solver

All numerical definitions of the library are written over one class of number systems. The program
computes in `Float`; a statement about exact arithmetic reads the same definitions over the reals.

* `Scalar`: arithmetic, decimal literals, square root, and comparisons with the meaning of the number
  system (of floats: a NaN is neither below, above nor equal to anything).
* `Elementary`: the functions that the initial fields need.
-/

namespace Magnetofluid

/-- A number system in which forms are assembled and linear systems are solved. -/
class Scalar (K : Type) extends
    Zero K, One K, Add K, Sub K, Mul K, Div K, Neg K, NatCast K, OfScientific K where
  sqrt : K → K
  abs : K → K
  /-- Strictly below. -/
  lt : K → K → Bool
  /-- Below or equal. -/
  le : K → K → Bool
  /-- Equal as numbers. -/
  eq : K → K → Bool
  /-- Half the distance between one and its upper neighbour, relative to which a computed number counts
  as zero. Exact number systems take zero. -/
  roundoff : K

namespace Scalar

variable {K : Type} [Scalar K]

/-- The larger of two numbers; the first unless the second is above it. -/
@[inline] def max (a b : K) : K := if lt a b then b else a

/-- The smaller of two numbers; the first unless the second is below it. -/
@[inline] def min (a b : K) : K := if lt b a then b else a

@[inline] def isZero (a : K) : Bool := eq a 0

def ofInt : Int → K
  | .ofNat n => (n : K)
  | .negSucc n => -((n + 1 : Nat) : K)

end Scalar

/-- A number system with the elementary functions of the initial fields. -/
class Elementary (K : Type) extends Scalar K where
  pi : K
  sin : K → K
  cos : K → K
  cosh : K → K
  log : K → K

instance : Elementary Float where
  zero := 0.0
  one := 1.0
  natCast := Float.ofNat
  sqrt := Float.sqrt
  abs := Float.abs
  lt a b := a < b
  le a b := a ≤ b
  eq a b := a == b
  roundoff := 2.220446049250313e-16
  pi := 3.141592653589793
  sin := Float.sin
  cos := Float.cos
  cosh := Float.cosh
  log := Float.log

end Magnetofluid
