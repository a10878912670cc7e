import Magnetofluid.Krylov.Preconditioner
import Magnetofluid.Model.Step

/-!
# Preconditioners of a step

What may precondition the linear systems of Newton's method: a general preconditioner of the whole matrix, or
the block triangular one, which factorises the diagonal blocks and substitutes backwards through the coupling of
constraint and vorticity.
-/

namespace Magnetofluid

/-- The kinds of preconditioners of a step. -/
inductive StepPreconditioner
  | block
  | ilu
  | jacobi
  | none
deriving DecidableEq, Repr

namespace StepPreconditioner

def all : List StepPreconditioner := [block, ilu, jacobi, none]

def name : StepPreconditioner → String
  | block => "block"
  | ilu => "ilu"
  | jacobi => "jacobi"
  | none => "none"

def ofName? (name : String) : Option StepPreconditioner := all.find? (·.name = name)

variable {K : Type} [Scalar K] {n : Nat}

/-- The entries of a matrix on states that take one block to another. -/
def blockOf (J : Sparse K (3 * n) (3 * n)) (target source : Block) : Sparse K n n :=
  let column? (k : Fin (3 * n)) : Option (Fin n) :=
    if h : source.position * n ≤ k ∧ k - source.position * n < n
    then some ⟨k - source.position * n, h.2⟩ else Option.none
  J.submatrix (State.place target) column?

/-- Backward substitution through factors of the diagonal blocks. -/
def substitute (potential flux vorticity : Factorization K n) (coupling : Sparse K n n)
    (r : State K n) : State K n :=
  let w := vorticity.solve r.w
  ⟨potential.solve (r.phi - coupling.mulVec w), flux.solve r.psi, w⟩

/-- The block triangular preconditioner. It needs diagonal blocks that are not singular. -/
def blockTriangular (J : Sparse K (3 * n) (3 * n)) : Except (Failure K) (Krylov.Preconditioner K (3 * n)) := do
  let factors (b : Block) := (Factorization.ofMatrix? (blockOf J b b)).elim (.error .singular) Except.ok
  let potential ← factors .potential
  let flux ← factors .flux
  let vorticity ← factors .vorticity
  let coupling := blockOf J .potential .vorticity
  return .map fun r => (substitute potential flux vorticity coupling (State.ofVec r)).toVec

def build (J : Sparse K (3 * n) (3 * n)) :
    StepPreconditioner → Except (Failure K) (Krylov.Preconditioner K (3 * n))
  | block => blockTriangular J
  | ilu => Krylov.Preconditioner.build J .ilu
  | jacobi => Krylov.Preconditioner.build J .jacobi
  | none => Krylov.Preconditioner.build J .none

end StepPreconditioner

end Magnetofluid
