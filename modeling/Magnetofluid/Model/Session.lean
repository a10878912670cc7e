import Magnetofluid.Form.Load
import Magnetofluid.Model.Configuration

/-!
# Sessions

A session holds a model, a state and the last rate that was computed for it, and changes them one call after
another. A call that fails leaves the rate as it was. The vectors that callers hand in are of unchecked length.

The start of an implicit step is the state of the session itself: what changes the state in place changes the start
with it, until the state is replaced as a whole or another start is given.
-/

namespace Magnetofluid

variable {K : Type} [RealText K]

/-- A model on a mesh in use. -/
structure Session (m : Mesh K) where
  named : NamedModel K m.nodes
  memory : Memory K m.nodes
  state : Array K
  rate : Array K
  /-- Whether the start of the step is the state of the session. -/
  startIsState : Bool

abbrev Session.Call (m : Mesh K) := EStateM (Failure K) (Session m)

namespace Session

variable {m : Mesh K}

def model (s : Session m) : Model K m.nodes := s.named.model

/-- The session of a model in the state of zeros. -/
def start (named : NamedModel K m.nodes) : Session m :=
  { named, memory := .fresh named.model
    state := Array.replicate (3 * m.nodes) 0, rate := Array.replicate (3 * m.nodes) 0
    startIsState := false }

def ofDescription (m : Mesh K) (d : ModelDescription K) : Except (Failure K) (Session m) := do
  return start (← d.toModel m)

def evaluate {α : Type} (act : Model K m.nodes → Action K m.nodes α) : Call m α := fun s =>
  match (act s.model).run s.memory with
  | .ok a memory => .ok a { s with memory }
  | .error e memory => .error e { s with memory }

def blocks (xs : Array K) : Call m (State K m.nodes) :=
  MonadExcept.ofExcept (State.ofArray m.nodes xs)

def current : Call m (State K m.nodes) := do blocks (← get).state

/-- Refuses an output vector that does not fit. -/
def checkOutput (output : Option (Array K)) : Call m Unit := do
  if let some xs := output then discard (blocks xs)

/-! ## The state -/

/-- Changes the state in place. -/
def write (x : State K m.nodes) : Call m Unit :=
  modify fun s =>
    let step := match s.memory.step.step, s.startIsState with
      | some step, true => some { step with start := x }
      | step, _ => step
    { s with state := x.toVec.toArray, memory.step.step := step }

/-- Puts another vector in the place of the state. -/
def replace (xs : Array K) : Call m Unit :=
  modify fun s => { s with state := xs, startIsState := false }

/-- Sets a block; a single value stands for all. -/
def setBlock (name : String) (xs : Array K) : Call m Unit := do
  let x ← current
  let some b := Block.ofName? name | throw .unknownBlock
  match (AnyTensor.ofArray xs).fill? m.nodes with
  | some values => write (x.setBlock b values)
  | none => throw .shape

/-- Adds a multiple of the rate to the state. -/
def advance (dt : K) : Call m Unit := do
  let s ← get
  match Vec.ofArray? (3 * m.nodes) s.state, Vec.ofArray? (3 * m.nodes) s.rate with
  | some x, some k => write (State.ofVec (x + Vec.scale dt k))
  | _, _ => throw .shape

/-! ## Evaluations of the state -/

def explicitRate (output : Option (Array K)) : Call m (State K m.nodes) := do
  let x ← current
  checkOutput output
  let k ← evaluate fun model => model.rate x
  modify fun s => { s with rate := k.toVec.toArray }
  return k

def implicitRate (dt : Value K) (output : Option (Array K)) : Call m (State K m.nodes) := do
  let x ← current
  let dt ← MonadExcept.ofExcept dt.stepSize
  evaluate fun _ => Model.setStep dt x
  modify fun s => { s with startIsState := true }
  checkOutput output
  let k ← evaluate fun model => model.implicitRate dt x
  modify fun s => { s with rate := k.toVec.toArray }
  return k

def recoverCurrent : Call m (Vec K m.nodes) := do
  let x ← current
  evaluate fun model => model.recoverCurrent x.psi

/-- Recovers the stream function of the state and puts it there. -/
def updatePotential : Call m (Vec K m.nodes) := do
  let x ← current
  let phi ← evaluate fun model => model.potential x
  write { x with phi }
  return phi

def energies : Call m (K × K) := do
  let x ← current
  let s ← get
  return (s.model.kineticEnergy x, s.model.magneticEnergy x)

/-! ## Current and forcing -/

/-- A field with the essential entries taken from another one. -/
def withBoundary (essential : List Int) (j boundary : Array K) : Except (Failure K) (Array K) := do
  let some source := essential.mapM (position? boundary.size) | throw .index
  let some target := essential.mapM (position? j.size) | throw .index
  let start : Vec K j.size := Vec.ofEntries j
  return ((List.zip target source).foldl (fun j p => Vec.put j p.1 ((Vec.ofEntries boundary).get p.2)) start).toArray

/-- The current of a flux, apart from the state: the prescribed values are those of `j` or of another field. -/
def recoverFrom (psi j : Array K) (boundary : Option (Array K)) : Call m (Vec K m.nodes) := do
  let essential := (← get).named.essential
  let j ← match boundary with
    | none => pure j
    | some b => MonadExcept.ofExcept (withBoundary essential j b)
  let some psi := Vec.ofArray? m.nodes psi | throw .shape
  if (essential.mapM (position? j.size)).isNone then throw .index
  let some j := Vec.ofArray? m.nodes j | throw .shape
  evaluate fun model => Model.withMass (model.recovery.recover psi j)

/-- Sets the forcing to the load of a function of position, or removes it. -/
def setField (f : Option (Coefficient K)) : Call m Unit := do
  let forcing ← match f with
    | none => pure none
    | some .other => throw (.notAFunction .electricField)
    | some f => pure (some (← MonadExcept.ofExcept (Form.load m f)))
  evaluate fun _ => Model.setForcing forcing

/-- Sets the current to the nodal values of a function of position. -/
def setCurrent (f : Coefficient K) : Call m Unit := do
  if f matches .other then throw (.notAFunction .initialCurrent)
  let j ← MonadExcept.ofExcept (m.project f)
  evaluate fun _ => Model.setCurrent j

/-- Prescribes the current on the essential nodes. -/
def setBoundaryCurrent (v : Value K) : Call m Unit := do
  let boundary ← MonadExcept.ofExcept ((← get).named.boundaryField v)
  evaluate fun model => model.setBoundaryCurrent boundary

/-- A nodal field; values beyond the last node do not count. -/
def nodal (xs : Array K) : Call m (Vec K m.nodes) :=
  match Vec.ofArray? m.nodes (xs.extract 0 m.nodes) with
  | some x => return x
  | none => throw .index

/-- Computes the bracket of a stream function for the explicit rate. -/
def bracketFlow (phi : Array K) : Call m (Sparse K m.nodes m.nodes) := do
  let N := (← get).model.bracket (← nodal phi)
  modify fun s => { s with memory.flow := some N }
  return N

/-- Computes the bracket of a flux for the explicit rate. -/
def bracketField (psi : Array K) : Call m (Sparse K m.nodes m.nodes) := do
  let N := (← get).model.bracket (← nodal psi)
  modify fun s => { s with memory.field := some N }
  return N

/-! ## The step -/

def setStep (dt : Value K) (start : Option (Array K)) : Call m Unit := do
  let x ← blocks (start.getD (← get).state)
  let dt ← MonadExcept.ofExcept dt.stepSize
  evaluate fun _ => Model.setStep dt x
  modify fun s => { s with startIsState := false }

def residual (x : Array K) (output : Option (Array K)) : Call m (State K m.nodes × Vec K m.nodes) := do
  discard (evaluate fun _ => Model.readyStep)
  let x ← blocks x
  checkOutput output
  let y ← evaluate fun model => model.residual x
  return (y, (← get).memory.step.current)

def gradient (x : Array K) : Call m (Sparse K (3 * m.nodes) (3 * m.nodes)) := do
  discard (evaluate fun _ => Model.readyStep)
  let x ← blocks x
  evaluate fun model => model.gradient x

/-- Computes the bracket of a stream function for the step. -/
def bracketStepFlow (phi : Array K) : Call m (Sparse K m.nodes m.nodes) := do
  let N := (← get).model.bracket (← nodal phi)
  modify fun s => { s with memory.step.flow := some N }
  return N

/-- Computes the bracket of a flux for the step. -/
def bracketStepField (psi : Array K) : Call m (Sparse K m.nodes m.nodes) := do
  let N := (← get).model.bracket (← nodal psi)
  modify fun s => { s with memory.step.field := some N }
  return N

/-- Gives the step a field of its own for the prescribed values of the current. -/
def setStepCurrent (j : Array K) : Call m Unit := do
  match Vec.ofArray? m.nodes j with
  | none => throw .currentMismatch
  | some j => modify fun s => { s with memory.step.boundary := .given j }

/-- Sets the forcing of the step alone. -/
def setStepForcing (forcing : Option (Vec K m.nodes)) : Call m Unit :=
  modify fun s => { s with memory.step.forcing := forcing }

/-- The residual of a step that knows only what is given here, at the state. -/
def residualApart (dt : Option (Value K)) (current : Option (Array K)) : Call m (State K m.nodes) := do
  let s ← get
  let act : Call m (State K m.nodes) := do
    modify fun s => { s with memory.step := .fresh .unset }
    if let some dt := dt then setStep dt none
    if let some j := current then setStepCurrent j
    return (← residual s.state none).1
  let settle (t : Session m) : Session m :=
    { t with memory.step := s.memory.step, startIsState := s.startIsState }
  match act.run s with
  | .ok y t => set (settle t); return y
  | .error e t => set (settle t); throw e

/-- A preconditioner of a kind for the linearisation at a vector, applied to the product of the linearisation and
another vector; nothing is applied by the kind that does nothing. -/
def preconditioned (kind : String) (x y : Array K) : Call m (Option (Vec K (3 * m.nodes))) := do
  let some kind := StepPreconditioner.ofName? kind | throw (.unknownNewtonPreconditioner kind)
  let J ← gradient x
  let P ← MonadExcept.ofExcept (kind.build J)
  if P.isIdentity then return none
  match Vec.ofArray? (3 * m.nodes) y with
  | some y => return some (P.apply (J.mulVec y))
  | none => throw .shape

def setMaxIter (limit : Value K) : Call m Unit := do
  let named := (← get).named
  let newton := named.newton.map fun e => if e.1 = "max_iter" then (e.1, limit) else e
  let named ← MonadExcept.ofExcept (named.withNewton newton)
  modify fun s => { s with named }

/-- Forgets what the last iterations of Newton's method told. -/
def quiet : Call m Unit :=
  modify fun s => { s with memory.newton.events := [] }

/-- The lines that Newton's method told since then. -/
def lines (s : Session m) : List String :=
  s.memory.newton.lines s.model.newton

end Session

end Magnetofluid
