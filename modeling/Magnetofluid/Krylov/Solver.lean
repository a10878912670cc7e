import Magnetofluid.Krylov.ConjugateGradient
import Magnetofluid.Krylov.MinimalResidual
import Magnetofluid.Krylov.Preconditioner
import Magnetofluid.Linear.AnyMatrix
import Magnetofluid.Tensor

/-!
# Solver contexts

A solver context holds a matrix with its preconditioner, set up once and used for every solve, and remembers
how the last solve ended. It can be emptied and given another matrix, of any size.

A solve either replaces the vector it is given by a solution that met the stopping test, or leaves it alone
and fails.
-/

namespace Magnetofluid.Krylov

variable {K : Type} [Scalar K]

structure AnyPreconditioner (K : Type) where
  size : Nat
  preconditioner : Preconditioner K size

/-- The preconditioner for `n` unknowns, if it has that size. -/
def AnyPreconditioner.ofSize? (n : Nat) : AnyPreconditioner K → Option (Preconditioner K n)
  | ⟨size, P⟩ => if h : size = n then some (cast (by rw [h]) P) else none

/-- The attempt that a solver makes at a system of `n` unknowns. The tolerances are looked at for any right-hand side, the
limit only for one that is not zero. A minimal residual iteration that must begin a cycle fails if it is allowed none. -/
@[specialize] def Settings.attempt {n : Nat} (s : Settings K) (A : Sparse K n n) (P : Preconditioner K n)
    (b x : Vec K n) : Except (Failure K) (Attempt K n) := do
  let atol ← s.atol
  if Scalar.lt atol 0 then throw .negativeTolerance
  let rtol ← s.rtol
  if Scalar.isZero (Vec.norm b) then return ⟨b, 0, true⟩
  let maxIter := (← s.maxIter).getD (10 * n)
  let guess := if s.iterative then x else Vec.zeros n
  match s.method with
  | .cg => return ConjugateGradient.solve A P.apply rtol atol maxIter b guess
  | .gmres =>
    if maxIter ≤ 0 then throw .noRounds
    return MinimalResidual.solve A P.apply rtol atol 20 maxIter b guess

/-- A way to solve one fixed system of `n` unknowns for a right-hand side, from a guess. It may fail; what it
remembers is the report on its last solve. -/
abbrev LinearSolve (K : Type) (n : Nat) :=
  (b guess : Vec K n) → EStateM (Failure K) (Report K) (Vec K n)

/-- A solver context. -/
structure Solver (K : Type) where
  settings : Settings K
  matrix : Option (AnyMatrix K)
  preconditioner : Option (AnyPreconditioner K)
  report : Report K

namespace Solver

/-- The preconditioner of a kind for a matrix of any size, for vectors with an entry for each row. The diagonal of a matrix
that is not square will do if it has as many entries, or a single one. -/
def preconditionerOf (A : AnyMatrix K) (kind : Kind) : Except (Failure K) (AnyPreconditioner K) :=
  match A.square? A.rows with
  | some B => return ⟨A.rows, ← Preconditioner.build B kind⟩
  | none =>
    match kind with
    | .other name => .error (.unknownPreconditioner name)
    | .ilu | .amg => .error .shape
    | .jacobi => do
      let d := A.diagonal
      if d.any Scalar.isZero then throw .zeroDiagonal
      match (AnyTensor.ofList (d.map (1 / ·))).stretch? [A.rows] with
      | some d => return ⟨A.rows, .jacobi d⟩
      | none => throw .shape
    | _ => .ok ⟨A.rows, .identity⟩

/-- Gives the context a matrix and builds the preconditioner. When the preconditioner cannot be built, the
context has the new matrix and the preconditioner it had before. -/
def setMatrix (A : AnyMatrix K) : EStateM (Failure K) (Solver K) Unit := do
  modify fun s => { s with matrix := some A }
  let s ← get
  match preconditionerOf A s.settings.preconditioner with
  | .error e => throw e
  | .ok p => set { s with preconditioner := some p }

def make (A : AnyMatrix K) (settings : Settings K) : Except (Failure K) (Solver K) := do
  return ⟨settings, some A, some (← preconditionerOf A settings.preconditioner), .fresh⟩

def hasHierarchy (s : Solver K) : Bool :=
  s.preconditioner.any (·.preconditioner.isMultigrid)

/-- The matrix and the preconditioner of a context for a system of `n` unknowns. A context whose
preconditioner was never built does without. -/
def system? (s : Solver K) (n : Nat) : Except (Failure K) (Sparse K n n × Preconditioner K n) :=
  match s.matrix with
  | none => .error .noMatrix
  | some A =>
    match A.square? n, (s.preconditioner.getD ⟨A.rows, .identity⟩).ofSize? n with
    | some B, some P => .ok (B, P)
    | _, _ => .error .shape

/-- Solves for a right-hand side and returns the solution. The report tells of the last attempt, failed or
not. -/
@[specialize] def solve {n : Nat} (b x : Vec K n) : EStateM (Failure K) (Solver K) (Vec K n) := do
  let s ← get
  if s.matrix.isNone then throw .noMatrix
  set { s with report := { s.report with iterations := 0 } }
  let (A, P) ← MonadExcept.ofExcept (s.system? n)
  let attempt ← MonadExcept.ofExcept (s.settings.attempt A P b x)
  let report : Report K :=
    ⟨attempt.converged, attempt.iterations, Vec.norm (b - A.mulVec attempt.solution)⟩
  set { s with report }
  if attempt.converged then return attempt.solution
  else throw (.notConverged s.settings.name report.iterations report.reason)

/-- The solves of a context that keeps its matrix, in a state that is the report alone. -/
@[specialize] def toLinearSolve (s : Solver K) (n : Nat) : LinearSolve K n := fun b x report =>
  match (solve b x).run { s with report } with
  | .ok y t => .ok y t.report
  | .error e t => .error e t.report

def release (s : Solver K) : Solver K :=
  { s with matrix := none, preconditioner := none }

end Solver

end Magnetofluid.Krylov
