import Magnetofluid.Model.Current
import Magnetofluid.Model.Preconditioner
import Magnetofluid.Newton.Solver

/-!
# The model

The resistive equations on a mesh: the operators with the linear solves they need, and what is remembered between
evaluations. An evaluation is an action on that memory.

* `Model.rate`: the explicit rate of change of a state.
* `Model.residual`, `Model.gradient`: residual and linearisation of the step in memory.
* `Model.implicitRate`: the rate that takes a state through a backward-Euler step.
* `Model.potential`: the stream function that belongs to a vorticity.

A solve that fails ends the evaluation with its cause; the current, the forcing and the step are then what they
were when the solve began.
-/

namespace Magnetofluid

/-- A model with `n` nodes: operators, linear solves, and the settings of Newton's method. -/
structure Model (K : Type) (n : Nat) extends Operators K n where
  massSolve : Krylov.LinearSolve K n
  stiffnessSolve : Krylov.LinearSolve K n
  /-- Solves of the stiffness matrix by multigrid, if stream functions are to be recovered by them. -/
  multigridSolve : Option (Krylov.LinearSolve K n)
  newton : Newton.Settings K
  linear : Newton.LinearSolver K (3 * n)
  preconditioner : StepPreconditioner

/-- Where the residual of a step takes the prescribed values of the current from. -/
inductive BoundaryCurrent (K : Type) (n : Nat)
  | unset
  /-- From the current of the model. -/
  | model
  | given (j : Vec K n)

/-- What is remembered of the implicit step. -/
structure StepMemory (K : Type) (n : Nat) where
  step : Option (Step K n)
  boundary : BoundaryCurrent K n
  forcing : Option (Vec K n)
  /-- The bracket of the stream function at which the step was last evaluated. -/
  flow : Option (Sparse K n n)
  /-- The bracket of the flux at which the residual was last evaluated. -/
  field : Option (Sparse K n n)
  current : Vec K n

/-- What a model remembers between evaluations. -/
structure Memory (K : Type) (n : Nat) where
  /-- The current: its essential entries are prescribed, the others are the last guess. -/
  current : Vec K n
  forcing : Option (Vec K n)
  /-- The bracket of the last stream function. -/
  flow : Option (Sparse K n n)
  /-- The bracket of the last flux. -/
  field : Option (Sparse K n n)
  step : StepMemory K n
  massReport : Krylov.Report K
  newton : Newton.Progress K
  /-- How many preconditioners were built so far. -/
  built : Nat
  /-- Whether the solves of mass and stiffness matrix are still there. -/
  solvable : Bool
  /-- Whether the multigrid solves are still there. -/
  multigrid : Bool

/-- An evaluation. -/
abbrev Action (K : Type) (n : Nat) := EStateM (Failure K) (Memory K n)

section Fresh

variable {K : Type} [Scalar K] {n : Nat}

/-- No step, and the current from the given source. -/
def StepMemory.fresh (boundary : BoundaryCurrent K n) : StepMemory K n :=
  ⟨none, boundary, none, none, none, Vec.zeros n⟩

/-- The memory of a model that has evaluated nothing. -/
def Memory.fresh (model : Model K n) : Memory K n :=
  { current := Vec.zeros n, forcing := none, flow := none, field := none, step := .fresh .model
    massReport := .fresh, newton := .none, built := 0
    solvable := true, multigrid := model.multigridSolve.isSome }

end Fresh

namespace Model

variable {K : Type} [Scalar K] {n : Nat} (model : Model K n)

/-! ## Solves -/

/-- Runs solves of the mass matrix, if they are still there. -/
def withMass {α : Type} (act : EStateM (Failure K) (Krylov.Report K) α) : Action K n α := fun mem =>
  if mem.solvable then
    match act.run mem.massReport with
    | .ok a massReport => .ok a { mem with massReport }
    | .error e massReport => .error e { mem with massReport }
  else .error .noMatrix mem

/-- What the recovery of the current needs. -/
def recovery : CurrentRecovery K n :=
  ⟨model.mass, model.jump, model.ess, model.massSolve⟩

/-- Recovers the current from a flux and keeps it. -/
def recoverCurrent (psi : Vec K n) : Action K n (Vec K n) := do
  let j ← withMass (model.recovery.recover psi (← get).current)
  modify fun mem => { mem with current := j }
  return j

/-- The rate whose product with the mass matrix is the given load off the essential nodes, and that is zero on
them. -/
def solveRate (load : Vec K n) : Action K n (Vec K n) :=
  withMass (model.massSolve (Vec.zeroOn model.ess load) (Vec.zeros n))

/-! ## Explicit rate -/

/-- The load of the rate of change of the flux. -/
def fluxLoad (flow : Sparse K n n) (forcing : Option (Vec K n)) (psi : Vec K n) : Vec K n :=
  let load := Vec.minusProduct? (-(flow.mulVec psi)) model.resistive psi
  match forcing with
  | none => load
  | some e => load - e

/-- The load of the rate of change of the vorticity. -/
def vorticityLoad (flow field : Sparse K n n) (j w : Vec K n) : Vec K n :=
  Vec.minusProduct? (-(flow.mulVec w)) model.viscous w + field.mulVec j

/-- The explicit rate of change of a state. The stream function has none. -/
def rate (x : State K n) : Action K n (State K n) := do
  let flow := model.bracket x.phi
  let field := model.bracket x.psi
  modify fun mem => { mem with flow := some flow, field := some field }
  let j ← model.recoverCurrent x.psi
  let psi ← model.solveRate (model.fluxLoad flow (← get).forcing x.psi)
  let w ← model.solveRate (model.vorticityLoad flow field j x.w)
  return ⟨Vec.zeros n, psi, w⟩

/-! ## Implicit step -/

def setStep (dt : Number K) (start : State K n) : Action K n Unit := do
  if dt.isPositive then modify fun mem => { mem with step.step := some ⟨dt, start⟩ }
  else throw (.stepNotPositive dt)

/-- The step in memory and the field that holds the prescribed values of the current. -/
def readyStep : Action K n (Step K n × Vec K n) := do
  let mem ← get
  let some step := mem.step.step | throw .noStep
  match mem.step.boundary with
  | .unset => throw .noCurrent
  | .model => return (step, mem.current)
  | .given j => return (step, j)

/-- The residual of the step at a state. -/
def residual (x : State K n) : Action K n (State K n) := do
  let (step, boundary) ← readyStep
  let flow := model.bracket x.phi
  let field := model.bracket x.psi
  modify fun mem => { mem with step.flow := some flow, step.field := some field }
  let j ← withMass (model.recovery.recoverWith x.psi (← get).step.current boundary)
  modify fun mem => { mem with step.current := j }
  discard (MonadExcept.ofExcept step.dt.usable)
  return step.residual model.toOperators (← get).step.forcing flow field j x

/-- The linearisation of the step at a state. -/
def gradient (x : State K n) : Action K n (Sparse K (3 * n) (3 * n)) := do
  let (step, _) ← readyStep
  let flow := model.bracket x.phi
  modify fun mem => { mem with step.flow := some flow }
  if step.dt.usable matches .error _ then throw .overflow
  return step.gradient model.toOperators flow

/-- The step as a system for Newton's method. -/
def system : Newton.System K (3 * n) (Memory K n) where
  residual x := do return (← model.residual (State.ofVec x)).toVec
  gradient x := model.gradient (State.ofVec x)
  precondition := some fun J => do
    modify fun mem => { mem with built := mem.built + 1 }
    MonadExcept.ofExcept (model.preconditioner.build J)

/-- Solves the step by Newton's method from a state; the answer is the last iterate. -/
def solveStep (x : State K n) : Action K n (State K n) := fun mem =>
  match (Newton.solve model.newton model.linear model.system none).run ⟨x.toVec, mem.newton, mem⟩ with
  | .ok _ s => .ok (State.ofVec s.x) { s.inner with newton := s.progress }
  | .error e s => .error e { s.inner with newton := s.progress }

/-- The rate that takes a state through a backward-Euler step of a given size. -/
def implicitRate (dt : Number K) (x : State K n) : Action K n (State K n) := do
  setStep dt x
  let y ← model.solveStep x
  let progress := (← get).newton
  unless progress.converged do
    throw (.newtonDiverged progress.iterations (progress.norm.getD 0))
  let step : Step K n := ⟨dt, x⟩
  return ⟨step.rate x.phi y.phi, step.rate x.psi y.psi, step.rate x.w y.w⟩

/-! ## Stream function and energies -/

/-- The load of the stream function of a vorticity. -/
def potentialLoad (w : Vec K n) : Vec K n :=
  Vec.zeroOn model.ess (-(model.massSystem.mulVec w))

/-- The stream function of the vorticity of a state, starting from the one it has. -/
def potential (x : State K n) : Action K n (Vec K n) := do
  let mem ← get
  let load := model.potentialLoad x.w
  let solve ← match model.multigridSolve with
    | some solve => if mem.multigrid then pure solve else throw .amgReleased
    | none => if mem.solvable then pure model.stiffnessSolve else throw .noMatrix
  match (solve load x.phi).run .fresh with
  | .ok phi _ => return phi
  | .error e _ => throw e

/-- Half the energy norm of a field. -/
def energy (u : Vec K n) : K := 0.5 * Vec.dot u (model.stiffness.mulVec u)

def kineticEnergy (x : State K n) : K := model.energy x.phi

def magneticEnergy (x : State K n) : K := model.energy x.psi

/-! ## Forcing and boundary current -/

def setForcing (forcing : Option (Vec K n)) : Action K n Unit :=
  modify fun mem => { mem with forcing, step.forcing := forcing }

def setCurrent (j : Vec K n) : Action K n Unit :=
  modify fun mem => { mem with current := j }

/-- Prescribes the current on the essential nodes, by a field that has the values there. -/
def setBoundaryCurrent (boundary : Vec K n) : Action K n Unit :=
  modify fun mem => { mem with current := Vec.overwriteOn model.ess boundary mem.current }

/-! ## Release -/

def releaseMultigrid : Action K n Unit :=
  modify fun mem => { mem with multigrid := false }

def release : Action K n Unit :=
  modify fun mem => { mem with multigrid := false, solvable := false }

end Model

end Magnetofluid
