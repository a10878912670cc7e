import Magnetofluid.Catalog
import Magnetofluid.Form.Load
import Magnetofluid.Model.Configuration
import Magnetofluid.Simulation.Basic
import Magnetofluid.Yaml.Printer
import Magnetofluid.Yaml.Document

/-!
# Simulations from configurations

A simulation is made from the sections of a configuration: the mesh, the model, the initial state, and, unless it is
silent, an output directory with the configuration in it.
-/

namespace Magnetofluid.Simulation

variable {K : Type} [RealText K]

def meshOf (grid : Value K) : Except (Failure K) (Mesh K) := do
  MeshDescription.toMesh
    { nx := ← grid.field "Nx", ny := ← grid.field "Ny", lx := ← grid.field "Lx", ly := ← grid.field "Ly"
      x0 := ← grid.field "x0", y0 := ← grid.field "y0" }

def modelOf (m : Mesh K) (s : RawSections K) : Except (Failure K) (NamedModel K m.nodes) := do
  ModelDescription.toModel
    { markers := ← s.grid.field "ess_bdr", viscosity := ← s.properties.field "viscosity"
      resistivity := ← s.properties.field "resistivity", solver := s.solver } m

def conditionOf (s : RawSections K) : Except (Failure K) (InitialCondition K) := do
  return (← InitialCase.ofValues s.initial s.grid).condition

/-- The initial state: the flux of the initial condition, and no flow. -/
def initialState (m : Mesh K) (c : InitialCondition K) : Except (Failure K) (State K m.nodes) := do
  return ⟨Vec.zeros m.nodes, ← m.project (.function c.psi), Vec.zeros m.nodes⟩

/-- Sets current and forcing to those of an initial condition. The value on the boundary and the forcing are subject
to the settings of the initial state. -/
def prepare {m : Mesh K} (s : RawSections K) (c : InitialCondition K) (named : NamedModel K m.nodes) :
    Action K m.nodes Unit := do
  Model.setCurrent (← MonadExcept.ofExcept (m.project (.function c.j)))
  match ← MonadExcept.ofExcept (s.initial.field "j_bdy") with
  | .null => pure ()
  | v => named.model.setBoundaryCurrent (← MonadExcept.ofExcept (named.boundaryField v))
  if (← MonadExcept.ofExcept (s.initial.field "forcing")).isTrue then
    let v ← MonadExcept.ofExcept (s.properties.field "resistivity")
    let zero := v.number?.any fun r => Scalar.isZero r.toScalar
    unless zero do
      let resistivity ← MonadExcept.ofExcept v.toOperand
      let load ← MonadExcept.ofExcept (Form.load m (.function (c.electricField resistivity)))
      Model.setForcing (some load)

/-- The simulation of the sections on a mesh, before it has anywhere to write to. -/
def onMesh (m : Mesh K) (s : RawSections K) (workspace : Workspace K) : Except (Failure K) (Simulation m) := do
  let named ← modelOf m s
  let c ← conditionOf s
  let state ← initialState m c
  match (prepare s c named).run (.fresh named.model) with
  | .ok _ memory =>
    return { model := named.model, sections := s, evolution := ⟨state, memory⟩, progress := none
             stopping := false, outdir := none, workspace }
  | .error e _ => throw e

/-- The simulation of the sections, before it has anywhere to write to. -/
def assemble (s : RawSections K) (workspace : Workspace K) :
    Except (Failure K) ((m : Mesh K) × Simulation m) := do
  let m ← meshOf s.grid
  return ⟨m, ← onMesh m s workspace⟩

/-- Makes the output directory with the configuration, the directory of snapshots and the log file. -/
def openOutput {m : Mesh K} : Simulating m Unit := do
  let options := (← get).sections.options
  if (← MonadExcept.ofExcept (options.field "silent")).isTrue then within (Log.setUp loggerName none false)
  else
    let output ← MonadExcept.ofExcept (options.field "output")
    let stamped := (← MonadExcept.ofExcept (options.field "use_tstamp")).isTrue
    let .text name := output | throw .wrongType
    let outdir ← within (Workspace.makeOutput name stamped)
    modify fun s => { s with outdir := some outdir }
    -- the file tells of the directory that was made, not of the one that was asked for
    put "options" "output" (.text outdir)
    let document := (← get).sections.toDocument Catalog.version
    within do
      Workspace.change do
        Files.write (Files.join outdir "config.yml") (.text document.toYaml)
        Files.makePath false (Files.join outdir "fields")
      Log.setUp loggerName (some outdir) true

def ofSections (s : RawSections K) : Work K ((m : Mesh K) × Simulation m) := fun workspace =>
  match assemble s workspace with
  | .error e => .error e workspace
  | .ok ⟨m, sim⟩ =>
    match openOutput.run sim with
    | .error e sim => .error e sim.workspace
    | .ok _ sim => .ok ⟨m, sim⟩ sim.workspace

def ofDocument (document : Value K) : Work K ((m : Mesh K) × Simulation m) := do
  ofSections (← MonadExcept.ofExcept (RawSections.ofDocument document))

def ofText (text : String) : Work K ((m : Mesh K) × Simulation m) := fun workspace =>
  match (Settings.Configuration.read (Value.ofYaml text)).run [] with
  | .error e lines => .error e { workspace with printed := workspace.printed ++ lines.toArray }
  | .ok c lines =>
    (ofSections (.ofConfiguration c)).run { workspace with printed := workspace.printed ++ lines.toArray }

def ofFile (name : String) : Work K ((m : Mesh K) × Simulation m) := do
  Workspace.say (Text.lines ("Reading input file: " ++ name))
  ofText (← Workspace.readText name)

end Magnetofluid.Simulation
