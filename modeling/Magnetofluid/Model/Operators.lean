import Magnetofluid.Form.Bilinear
import Magnetofluid.Linear.Elimination

/-!
# Operators of the model

The matrices of the resistive equations on a mesh with a set of essential nodes. They do not depend on the
state; the bracket, which does, is given as a function of a nodal field.
-/

namespace Magnetofluid

/-- The linear operators of a model, and the bracket. -/
structure Operators (K : Type) (n : Nat) where
  ess : Essential n
  /-- The mass matrix `M`. -/
  mass : Sparse K n n
  /-- The stiffness matrix `K`. -/
  stiffness : Sparse K n n
  /-- Stiffness less the boundary flux: the jumps of the normal derivative. -/
  jump : Sparse K n n
  /-- Viscous diffusion, unless the viscosity is zero. -/
  viscous : Option (Sparse K n n)
  /-- Resistive diffusion, unless the resistivity is zero. -/
  resistive : Option (Sparse K n n)
  /-- The mass matrix with the essential nodes eliminated. -/
  massSystem : Sparse K n n
  /-- The stiffness matrix with the essential nodes eliminated. -/
  stiffnessSystem : Sparse K n n
  /-- The matrix that convects along the level lines of a nodal field. -/
  bracket : Vec K n → Sparse K n n

namespace Operators

variable {K : Type} [Scalar K]

/-- Diffusion with a coefficient, unless it is zero. -/
def diffusion? (m : Mesh K) (c : K) : Option (Sparse K m.nodes m.nodes) :=
  if Scalar.isZero c then none else some (Form.diffusion m c)

def ofMesh (m : Mesh K) (ess : Essential m.nodes) (viscosity resistivity : K) : Operators K m.nodes :=
  let mass := Form.mass m
  let stiffness := Form.diffusion m 1
  { ess, mass, stiffness
    jump := stiffness - Form.boundaryFlux m
    viscous := diffusion? m viscosity
    resistive := diffusion? m resistivity
    massSystem := mass.eliminate ess
    stiffnessSystem := stiffness.eliminate ess
    bracket := Form.bracket m }

end Operators

/-- The vector `x + A y`, or `x` where there is no matrix. -/
def Vec.plusProduct? {K : Type} [Scalar K] {n : Nat} (x : Vec K n) (A : Option (Sparse K n n)) (y : Vec K n) :
    Vec K n :=
  match A with
  | none => x
  | some A => x + A.mulVec y

/-- The vector `x - A y`, or `x` where there is no matrix. -/
def Vec.minusProduct? {K : Type} [Scalar K] {n : Nat} (x : Vec K n) (A : Option (Sparse K n n))
    (y : Vec K n) : Vec K n :=
  match A with
  | none => x
  | some A => x - A.mulVec y

end Magnetofluid
