import Magnetofluid.Failure
import Magnetofluid.Krylov.Settings
import Magnetofluid.Linear.Multigrid

/-!
# Preconditioners

A preconditioner is built once from a matrix and then applied to residuals. `Preconditioner.build` says which
kinds fail on which matrices.
-/

namespace Magnetofluid.Krylov

variable {K : Type} [Scalar K] {n : Nat}

/-- An approximate inverse of a matrix with `n` rows. -/
inductive Preconditioner (K : Type) (n : Nat)
  | identity
  /-- Division by the diagonal, given by its reciprocals. -/
  | jacobi (reciprocals : Vec K n)
  /-- Triangular factors. -/
  | factors (f : Factorization K n)
  /-- One multigrid cycle. -/
  | multigrid (h : Hierarchy K n)
  /-- Any map of vectors. -/
  | map (f : Vec K n → Vec K n)

namespace Preconditioner

@[specialize] def apply : Preconditioner K n → Vec K n → Vec K n
  | identity, x => x
  | jacobi d, x => .ofFn fun i => d.get i * x.get i
  | factors f, x => f.solve x
  | multigrid h, x => h.cycle x
  | map f, x => f x

/-- Whether anything is applied at all. -/
def isIdentity : Preconditioner K n → Bool
  | identity => true
  | _ => false

def isMultigrid : Preconditioner K n → Bool
  | multigrid _ => true
  | _ => false

/-- Division by the diagonal of a matrix. It needs a diagonal without zeros. -/
def ofDiagonal (A : Sparse K n n) : Except (Failure K) (Preconditioner K n) :=
  let d := A.diagonal
  if d.any Scalar.isZero then .error .zeroDiagonal
  else .ok (.jacobi (.ofFn fun i => 1 / d.get i))

def build (A : Sparse K n n) : Kind → Except (Failure K) (Preconditioner K n)
  | .unset => .ok .identity
  | .none => .ok .identity
  | .jacobi => ofDiagonal A
  | .ilu => (Factorization.ofMatrix? A).elim (.error .singular) fun f => .ok (.factors f)
  | .amg => .ok (.multigrid (.ofMatrix A))
  | .other name => .error (.unknownPreconditioner name)

end Preconditioner

end Magnetofluid.Krylov
