import Magnetofluid.Krylov.Solver
import Magnetofluid.Linear.Elimination

/-!
# Current from flux

The current density `j` is not a part of the state. It is recovered from the flux by solving
`M j = -(K - B) psi` with prescribed values on the essential nodes.
-/

namespace Magnetofluid

/-- What the recovery of the current needs: the mass matrix and the jump operator, both before elimination, the
essential nodes, and solves of the mass matrix after elimination. -/
structure CurrentRecovery (K : Type) (n : Nat) where
  mass : Sparse K n n
  jump : Sparse K n n
  ess : Essential n
  solve : Krylov.LinearSolve K n

namespace CurrentRecovery

variable {K : Type} [Scalar K] {n : Nat}

/-- The right-hand side of the system of the current, for a field that holds the prescribed values. -/
def rhs (r : CurrentRecovery K n) (psi j : Vec K n) : Vec K n :=
  r.mass.eliminateRhs r.ess j (-(r.jump.mulVec psi))

/-- The current of a flux. The prescribed values are those of `j`, which is also the guess. -/
def recover (r : CurrentRecovery K n) (psi j : Vec K n) : EStateM (Failure K) (Krylov.Report K) (Vec K n) :=
  r.solve (r.rhs psi j) j

/-- The current of a flux with prescribed values from another field. -/
def recoverWith (r : CurrentRecovery K n) (psi j boundary : Vec K n) :
    EStateM (Failure K) (Krylov.Report K) (Vec K n) :=
  r.recover psi (Vec.overwriteOn r.ess boundary j)

end CurrentRecovery

end Magnetofluid
