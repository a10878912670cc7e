import Magnetofluid.Newton.Configuration
import Magnetofluid.Simulation.History
import Magnetofluid.Simulation.Schedule
import Magnetofluid.Workspace.Log
import Magnetofluid.Workspace.Output

/-!
# Simulations

A simulation holds a model, a state on its way, where it stands, and the workspace that it writes to.

* `Simulation.start`: begins at time zero.
* `Simulation.update`: takes the state through a step; `Simulation.postUpdate` counts and records the step.
* `Simulation.isFinished`: whether the end is reached.
* `Simulation.write`: prints the status and saves a snapshot, unless the simulation is silent.
-/

namespace Magnetofluid

/-- What is known of a simulation since it was begun with a size of step. -/
structure Course (K : Type) where
  /-- The size of the steps as it was given. -/
  dt : Value K
  newtonIts : Nat
  history : Array (Record K)

structure Progress (K : Type) where
  step : Int
  time : K
  course : Option (Course K)

structure Simulation {K : Type} [Scalar K] (m : Mesh K) where
  model : Model K m.nodes
  sections : RawSections K
  evolution : Evolution K m.nodes
  progress : Option (Progress K)
  /-- Whether a signal asked the simulation to stop, since it last ran. -/
  stopping : Bool
  /-- The output directory, unless the simulation began silent. -/
  outdir : Option String
  workspace : Workspace K

variable {K : Type} [RealText K]

/-- An action of a simulation. What it did before a failure stays done. -/
abbrev Simulating (m : Mesh K) := EStateM (Failure K) (Simulation m)

namespace Simulation

variable {m : Mesh K}

/-- The name of the logger of simulations. -/
def loggerName : String := "ResMHD.problem"

def schedule (s : Simulation m) : Schedule K := s.sections.schedule

def state (s : Simulation m) : State K m.nodes := s.evolution.state

/-- The current of the last state for which it was recovered. -/
def current (s : Simulation m) : Vec K m.nodes := s.evolution.memory.current

def kineticEnergy (s : Simulation m) : K := s.model.kineticEnergy s.state

def magneticEnergy (s : Simulation m) : K := s.model.magneticEnergy s.state

/-- Looks up a setting of the schedule. -/
def setting {α : Type} (f : Schedule K → Setting K α) : Simulating m α := do
  MonadExcept.ofExcept (f (← get).schedule)

/-- Acts in the workspace. -/
def within {α : Type} (act : Work K α) : Simulating m α := fun s =>
  match act.run s.workspace with
  | .ok a workspace => .ok a { s with workspace }
  | .error e workspace => .error e { s with workspace }

/-- The simulation after the lines of Newton's method were printed. -/
def tellNewton (s : Simulation m) : Simulation m :=
  let newton := s.evolution.memory.newton
  let lines := newton.lines s.model.newton
  { s with
    evolution.memory.newton.events := []
    workspace.printed := s.workspace.printed ++ lines.toArray }

def evolve {α : Type} (act : Model K m.nodes → Evolving K m.nodes α) : Simulating m α := fun s =>
  match (act s.model).run s.evolution with
  | .ok a evolution => .ok a { s with evolution }.tellNewton
  | .error e evolution => .error e { s with evolution }.tellNewton

def standing : Simulating m (Progress K) := do
  match (← get).progress with
  | some p => return p
  | none => throw .wrongStructure

/-- What is known since the simulation was begun. -/
def course : Simulating m (Course K) := do
  match (← get).progress.bind (·.course) with
  | some c => return c
  | none => throw .wrongStructure

def modifyCourse (f : Course K → Course K) : Simulating m Unit :=
  modify fun s => { s with progress := s.progress.map fun p => { p with course := p.course.map f } }

/-- Begins at time zero with an empty history. Without a size of step there is no course. -/
def start : Simulating m Unit := do
  modify fun s => { s with progress := some ⟨0, 0, s.progress.bind (·.course)⟩ }
  let dt ← setting (·.dt)
  modify fun s => { s with progress := some ⟨0, 0, some ⟨dt, 0, #[]⟩⟩ }

/-! ## Steps -/

/-- Takes the state through a step. -/
def update : Simulating m Unit := do
  let dt := (← course).dt
  let integration ← setting (·.integration)
  let dt ← MonadExcept.ofExcept (if integration = .implicit then dt.stepSize else dt.toNumber)
  evolve fun model => Evolution.takeStep model integration dt
  if integration = .implicit then
    let newtonIts := (← get).evolution.memory.newton.iterations
    modifyCourse fun c => { c with newtonIts }

/-- Recovers the current of the new state, counts the step and records it. -/
def postUpdate : Simulating m Unit := do
  let psi := (← get).state.psi
  discard (evolve fun model => Evolution.evaluate (model.recoverCurrent psi))
  let some p := (← get).progress | throw .wrongType
  let p := { p with step := p.step + 1 }
  -- the step counts, also if it cannot be recorded
  modify fun s => { s with progress := some p }
  let some c := p.course | throw .wrongStructure
  let dt ← MonadExcept.ofExcept c.dt.toScalar
  let time := p.time + dt
  let s ← get
  let record : Record K :=
    { step := p.step, time, dt := c.dt, ekin := s.kineticEnergy, emag := s.magneticEnergy
      jmax := Vec.maxAbs s.current, newtonIts := c.newtonIts }
  set { s with progress := some ⟨p.step, time, some { c with history := c.history.push record }⟩ }

/-- Whether the final time or the largest number of steps is reached. The final time counts as reached a little
before it is. -/
def isFinished : Simulating m Bool := do
  let tEnd ← setting (·.tEnd)
  let p ← standing
  let dt ← MonadExcept.ofExcept (← course).dt.toScalar
  let tEnd ← MonadExcept.ofExcept tEnd.usable
  if Scalar.le (tEnd - 1e-8 * dt) p.time then return true
  return (← setting (·.maxIt)).atMost p.step

/-! ## Output -/

/-- Does something unless the simulation is silent. -/
def unlessSilent (act : Simulating m Unit) : Simulating m Unit := do
  unless ← setting (·.silent) do act

/-- Sends a message to console and log file. -/
def tell (message : String) : Simulating m Unit := within (Log.send loggerName .info message)

def printHeader : Simulating m Unit := unlessSilent do
  let rule := Text.repeated 61 "-"
  tell rule
  tell "Step   Timestep   Time       E_kin      E_mag      Newton"
  tell rule

/-- The real number that a value is shown as. A text cannot be shown as one. -/
def shownAs (v : Value K) : Except (Failure K) K :=
  match v with
  | .text _ => .error .shape
  | v => v.toScalar

def printStatus : Simulating m Unit := unlessSilent do
  let s ← get
  let some p := s.progress | throw .wrongType
  let c ← course
  let dt ← MonadExcept.ofExcept (shownAs c.dt)
  let reals := [dt, p.time, s.kineticEnergy, s.magneticEnergy].map (RealText.scientific 4)
  tell (Text.joined " " ([Text.padRight 6 (toString p.step)] ++ reals ++
    [Text.padRight 6 (toString c.newtonIts)]))

/-- The arrays of a snapshot. -/
def snapshot (s : Simulation m) (p : Progress K) : List (Files.NamedArray K) :=
  let nodal (name : String) (values : Vec K m.nodes) : Files.NamedArray K :=
    ⟨name, [m.nodes], .reals values.toArray.toList⟩
  let corners := m.cells.flatMap fun t => (List.finRange 3).map fun a => ((m.corner t a).val : Int)
  [⟨"step", [], .integers [p.step]⟩, ⟨"time", [], .reals [p.time]⟩,
    nodal "x" (.ofFn fun i => (m.point i).x), nodal "y" (.ofFn fun i => (m.point i).y),
    ⟨"cells", [m.triangles, 3], .integers corners⟩,
    nodal "phi" s.state.phi, nodal "psi" s.state.psi, nodal "w" s.state.w, nodal "j" s.current]

/-- The name of a file of the output directory. -/
def outputFile (parts : List String) : Simulating m String := do
  match (← get).outdir with
  | some outdir => return parts.foldl Files.join outdir
  | none => throw .wrongType

def save (parts : List String) : Simulating m Unit := do
  let name ← outputFile parts
  let p ← standing
  let arrays := (← get).snapshot p
  within (Workspace.change (Files.write name (.archive arrays)))

/-- Prints the status and saves a snapshot. -/
def write : Simulating m Unit := do
  printStatus
  unlessSilent do
    let p ← standing
    save ["fields", "sol_" ++ Text.padded 6 p.step.toNat ++ ".npz"]

def saveHistory : Simulating m Unit := do
  let name ← outputFile ["history.csv"]
  let table := Record.table (← course).history.toList
  within (Workspace.change (Files.write name (.text table.text)))

/-- Gives a block of the state or the current new values; a single value stands for all. -/
def setField (name : String) (xs : Array K) : Simulating m Unit := do
  let block := Block.ofName? name
  if block.isNone && name ≠ "j" then throw .wrongStructure
  let some values := (AnyTensor.ofArray xs).fill? m.nodes | throw .shape
  match block with
  | some b => modify fun s => { s with evolution.state := s.state.setBlock b values }
  | none => modify fun s => { s with evolution.memory.current := values }

/-- The section of a name. Among the sections of a simulation, that of the properties has a shorter name than elsewhere. -/
def sectionOf? (name : String) : Option Settings.SectionName :=
  match name with
  | "prop" => some .properties
  | "properties" => none
  | name => Settings.SectionName.all.find? (·.text = name)

/-- Changes a setting of a section. -/
def put (name key : String) (new : Value K) : Simulating m Unit := do
  let some name := sectionOf? name | throw .wrongStructure
  let sections ← MonadExcept.ofExcept ((← get).sections.set name key new)
  modify fun s => { s with sections }

end Simulation

end Magnetofluid
