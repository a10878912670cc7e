import Magnetofluid.Failure
import Magnetofluid.Linear.Vector

/-!
# Settings and reports of an iterative solve

What a caller chooses for a Krylov solver and what the solver reports about a solve.
-/

namespace Magnetofluid.Krylov

/-- The iteration of a solver. -/
inductive Method
  /-- Conjugate gradients. -/
  | cg
  /-- Restarted generalised minimal residuals. -/
  | gmres
deriving DecidableEq, Repr

/-- The kinds of preconditioners a caller can name. A name without meaning is kept until the preconditioner is
built. -/
inductive Kind
  /-- Nothing was named. -/
  | unset
  | none
  | jacobi
  | ilu
  | amg
  | other (name : String)
deriving DecidableEq, Repr

def Kind.ofName : String → Kind
  | "none" => .none
  | "jacobi" => .jacobi
  | "ilu" => .ilu
  | "amg" => .amg
  | name => .other name

def Kind.name? : Kind → Option String
  | .unset => Option.none
  | .none => some "none"
  | .jacobi => some "jacobi"
  | .ilu => some "ilu"
  | .amg => some "amg"
  | .other name => some name

def Method.name : Method → String
  | .cg => "cg"
  | .gmres => "gmres"

def Method.ofName? : String → Option Method
  | "cg" => some .cg
  | "gmres" => some .gmres
  | _ => none

/-- The settings of a solver. A solve has converged when the norm of its residual is within the larger of
`atol` and `rtol` times the norm of the right-hand side. Tolerances and limit are looked at by each solve. -/
structure Settings (K : Type) where
  method : Method
  preconditioner : Kind
  rtol : Setting K K
  atol : Setting K K
  /-- The largest number of rounds: iterations of `cg`, restart cycles of `gmres`. Where it is not limited, there are at
  most ten for each unknown. -/
  maxIter : Setting K (Option Int)
  /-- Whether a solve starts from the vector that it overwrites. -/
  iterative : Bool
  /-- The label in error messages. -/
  name : String

/-- The end of an iteration: the vector reached, the iterations made, and whether the stopping test was met. -/
structure Attempt (K : Type) (n : Nat) where
  solution : Vec K n
  iterations : Nat
  converged : Bool

/-- What is remembered of the last solve. -/
structure Report (K : Type) where
  converged : Bool
  iterations : Nat
  residualNorm : K

/-- The report of a solver that has not solved anything. -/
def Report.fresh {K : Type} [Scalar K] : Report K := ⟨true, 0, 0⟩

/-- One if the solve converged, minus one if not. -/
def Report.reason {K : Type} (r : Report K) : Int := if r.converged then 1 else -1

end Magnetofluid.Krylov
