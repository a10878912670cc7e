import Magnetofluid.Scalar

/-!
# Numbers as they are written

A setting may be given as an integer or as a real number. The two compute alike and print differently, so the
distinction is kept until a number is used.
-/

namespace Magnetofluid

inductive Number (K : Type)
  | int (i : Int)
  | real (x : K)
deriving Repr, BEq, DecidableEq

namespace Number

variable {K : Type} [Scalar K]

/-- The number as an element of the number system. -/
def toScalar : Number K → K
  | int i => Scalar.ofInt i
  | real x => x

def isPositive : Number K → Bool
  | int i => decide (0 < i)
  | real x => Scalar.lt 0 x

def isBelowOne : Number K → Bool
  | int i => decide (i < 1)
  | real x => Scalar.lt x 1

end Number

end Magnetofluid
