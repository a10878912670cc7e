import Magnetofluid.Krylov.MinimalResidual
import Magnetofluid.Krylov.Preconditioner
import Magnetofluid.Tensor

/-!
# Newton's method

Damped inexact Newton iteration for `F(x) = b`. A system provides its residual `F`, a linearisation and,
optionally, a preconditioner for each linearisation; a linear solver provides the steps. All of them may fail
and may have effects of their own, so an iteration runs in a state that pairs its progress with the state of the
system, and a failure leaves both as they are at that point.

The iteration stops when the norm of the residual is at most the larger of `atol` and `rtol` times the first
norm, or after `maxIter` steps.
-/

namespace Magnetofluid.Newton

variable {K : Type} [Scalar K] {n : Nat} {σ : Type}

/-- The settings of a Newton iteration and of its linear solves. Each is looked at where the iteration needs it. -/
structure Settings (K : Type) where
  rtol : Setting K K
  atol : Setting K K
  /-- The largest number of steps. -/
  maxIter : Setting K Int
  /-- The fraction of each step that is taken. -/
  alpha : Setting K K
  linearRtol : Setting K K
  linearAtol : Setting K K
  /-- The largest number of cycles of a linear solve, if there is a limit other than ten for each unknown. -/
  linearMaxIter : Setting K (Option Int)
  /-- The length of the cycles for a number of unknowns. -/
  restart : Nat → Setting K Int
  /-- Whether every iteration is told. -/
  verbose : Setting K Bool

/-- A nonlinear system with `n` unknowns and effects on a state. -/
structure System (K : Type) (n : Nat) (σ : Type) where
  residual : Vec K n → EStateM (Failure K) σ (Vec K n)
  gradient : Vec K n → EStateM (Failure K) σ (Sparse K n n)
  precondition : Option (Sparse K n n → EStateM (Failure K) σ (Krylov.Preconditioner K n))

/-- The answer of a linear solver: a step, and zero if it met its tolerance. A negative number says that the
step cannot be used. -/
structure LinearStep (K : Type) (n : Nat) where
  step : Vec K n
  info : Int

abbrev LinearSolver (K : Type) (n : Nat) :=
  Sparse K n n → Krylov.Preconditioner K n → Vec K n → Except (Failure K) (LinearStep K n)

/-- What is reported while an iteration runs. -/
inductive Event (K : Type)
  | residual (iteration : Nat) (norm : K)
  /-- A linear solve ended short of its tolerance. -/
  | stalled (iteration : Nat)
  | converged (iterations : Nat) (norm : K)
  | gaveUp (iterations : Nat) (norm : K)

/-- The progress of an iteration. The history holds the norms of all residuals, the last one first; `norm` is
the last norm that was ever computed. -/
structure Progress (K : Type) where
  converged : Bool
  iterations : Nat
  norm : Option K
  history : List K
  events : List (Event K)

/-- The progress before anything was solved. -/
def Progress.none : Progress K := ⟨false, 0, .none, [], []⟩

/-- The state of an iteration: the iterate, the progress, and the state of the system. -/
structure State (K : Type) (n : Nat) (σ : Type) where
  x : Vec K n
  progress : Progress K
  inner : σ

abbrev Action (K : Type) (n : Nat) (σ : Type) := EStateM (Failure K) (State K n σ)

/-- An effect on the state of the system alone. -/
def onSystem {α : Type} (act : EStateM (Failure K) σ α) : Action K n σ α := fun s =>
  match act.run s.inner with
  | .ok a inner => .ok a { s with inner }
  | .error e inner => .error e { s with inner }

def report (event : Event K) : Action K n σ Unit :=
  modify fun s => { s with progress.events := event :: s.progress.events }

/-- The residual at the iterate, less the right-hand side. -/
def residualLess (sys : System K n σ) (b : Option (Vec K n)) : Action K n σ (Vec K n) := do
  let r ← onSystem (sys.residual (← get).x)
  match b with
  | none => return r
  | some b => return r - b

/-- Evaluates the residual, records its norm and tells it. -/
def measure (settings : Settings K) (sys : System K n σ) (b : Option (Vec K n)) : Action K n σ (Vec K n × K) := do
  let r ← residualLess sys b
  let norm := Vec.norm r
  modify fun s => { s with progress := { s.progress with
    norm := some norm, history := norm :: s.progress.history } }
  discard (MonadExcept.ofExcept settings.verbose)
  report (.residual (← get).progress.iterations norm)
  return (r, norm)

/-- Takes a damped step against a residual. -/
def advance (settings : Settings K) (linear : LinearSolver K n) (sys : System K n σ) (r : Vec K n) :
    Action K n σ Unit := do
  let J ← onSystem (sys.gradient (← get).x)
  let P ← match sys.precondition with
    | none => pure .identity
    | some build => onSystem (build J)
  let answer ← MonadExcept.ofExcept (linear J P r)
  if answer.info < 0 then throw (.notConverged "Newton GMRES" 0 answer.info)
  if 0 < answer.info then report (.stalled (← get).progress.iterations)
  let alpha ← MonadExcept.ofExcept settings.alpha
  modify fun s => { s with
    x := Vec.subScaled s.x alpha answer.step
    progress.iterations := s.progress.iterations + 1 }

/-- The bound on the norm of a residual that counts as zero, given the first norm. -/
def Settings.bound (settings : Settings K) (first : K) : Setting K K := do
  return Scalar.max ((← settings.rtol) * first) (← settings.atol)

/-- The largest number of steps, zero if there is no telling. -/
def Settings.steps (settings : Settings K) : Nat := (settings.maxIter.toOption.getD 0).toNat

/-- Evaluates the residual and, unless it is within its bound, takes one of at most `steps` steps and goes on.
`first?` is the first norm, once it is known. -/
def iterate (settings : Settings K) (linear : LinearSolver K n) (sys : System K n σ) (b : Option (Vec K n)) :
    (steps : Nat) → (first? : Option K) → Action K n σ Unit
  | steps, first? => do
    let (r, norm) ← measure settings sys b
    let first := first?.getD norm
    if Scalar.le norm (← MonadExcept.ofExcept (settings.bound first)) then
      modify fun s => { s with progress.converged := true }
      report (.converged (← get).progress.iterations norm)
    else match steps with
      | 0 => do
        -- a limit that no count can be compared with is noticed here, after the first residual
        discard (MonadExcept.ofExcept settings.maxIter)
        report (.gaveUp (← get).progress.iterations norm)
      | steps + 1 => do
        advance settings linear sys r
        iterate settings linear sys b steps (some first)

/-- Forgets the progress of an earlier solve, but for its last norm. -/
def reset : Action K n σ Unit :=
  modify fun s => { s with progress := { Progress.none with norm := s.progress.norm } }

/-- Solves `F(x) = b` from the iterate of the state; no right-hand side stands for zero. -/
def solve (settings : Settings K) (linear : LinearSolver K n) (sys : System K n σ) (b : Option (Vec K n)) :
    Action K n σ Unit := do
  reset
  iterate settings linear sys b settings.steps none

/-- Solves with a right-hand side of unchecked shape. A shape that does not fit is noticed after the first evaluation of
the residual. -/
def solveAny (settings : Settings K) (linear : LinearSolver K n) (sys : System K n σ)
    (b : Option (AnyTensor K)) : Action K n σ Unit := do
  match b with
  | none => solve settings linear sys none
  | some b =>
    match b.stretch? [n] with
    | some b => solve settings linear sys (some b)
    | none => do
      reset
      let _ ← residualLess sys none
      throw .shape

/-- The steps of restarted minimal residuals. -/
def Settings.minimalResidual (settings : Settings K) : LinearSolver K n := fun J P r => do
  let atol ← settings.linearAtol
  if Scalar.lt atol 0 then throw .negativeTolerance
  let rtol ← settings.linearRtol
  let size := Vec.norm r
  if Scalar.isZero size then return ⟨r, 0⟩
  let restart ← settings.restart n
  if restart < 0 then throw .shape
  let maxIter := (← settings.linearMaxIter).getD (10 * n)
  if maxIter ≤ 0 then throw .noRounds
  if restart = 0 && !Scalar.lt size (Scalar.max atol (rtol * size)) then throw .noRounds
  let attempt := Krylov.MinimalResidual.solve J P.apply rtol atol restart.toNat maxIter r (Vec.zeros n)
  return ⟨attempt.solution, if attempt.converged then 0 else maxIter⟩

end Magnetofluid.Newton
