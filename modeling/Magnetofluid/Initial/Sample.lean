import Magnetofluid.Initial.Basic
import Magnetofluid.Value.Tensor

/-!
# Samples of initial conditions

The profiles of an initial condition at points whose coordinates are arrays. A profile has one value for each entry of
the coordinates that it is written with; two coordinates are stretched to the shape that they have in common.
-/

namespace Magnetofluid

variable {K : Type} [RealText K]

/-- The values of a profile that is written with some of the coordinates. -/
def Coordinates.sample (f : Profile K) (xs ys : AnyTensor K) : Coordinates → Except (Failure K) (AnyTensor K)
  | x => .ok (xs.map fun x => f x 0)
  | y => .ok (ys.map fun y => f 0 y)
  | both => (AnyTensor.zipWith? f xs ys).elim (.error .shape) .ok

namespace InitialCondition

structure Samples (K : Type) where
  psi : AnyTensor K
  j : AnyTensor K
  background : AnyTensor K
  electricField : AnyTensor K

/-- The values at points, for a resistivity that is looked at last. -/
def sample (c : InitialCondition K) (resistivity : Value K) (xs ys : AnyTensor K) :
    Except (Failure K) (Samples K) := do
  let psi ← Coordinates.both.sample c.psi xs ys
  let j ← Coordinates.both.sample c.j xs ys
  let background ← c.coordinates.sample c.background xs ys
  let resistivity ← resistivity.toOperand
  return { psi, j, background, electricField := background.map (resistivity * ·) }

end InitialCondition

end Magnetofluid
