import Magnetofluid.Krylov.Configuration
import Magnetofluid.Mesh.Description
import Magnetofluid.Model.Basic
import Magnetofluid.Model.Defaults
import Magnetofluid.Newton.Configuration
import Magnetofluid.Value.Tensor

/-!
# Models from settings

A model as a caller describes it: which nodes are essential, the coefficients, and the settings of the solvers.
What is wrong is noticed in this order: the coefficients, the solver settings as a whole, the essential nodes, the
solver of the mass matrix, that of the stiffness matrix, the multigrid solver, the preconditioner of the step, the
settings of Newton's method.
-/

namespace Magnetofluid

structure ModelDescription (K : Type) where
  /-- One marker for each side of the rectangle. -/
  markers : Value K := .list (List.replicate 4 (.int 1))
  /-- The essential nodes one by one, if the markers are not to say. -/
  nodes : Option (Value K) := none
  viscosity : Value K := .int 0
  resistivity : Value K := .int 0
  solver : Value K := .null

/-- A model with what is known of it by name: the indices of its essential nodes as they were given, the completed solver
settings, and those of Newton's method among them. -/
structure NamedModel (K : Type) (n : Nat) where
  model : Model K n
  essential : List Int
  solver : List (Value K × Value K)
  newton : List (String × Value K)

variable {K : Type} [RealText K]

namespace NamedModel

variable {n : Nat}

/-- A field that has given values on the essential nodes, one for each or one for all. -/
def boundaryField (named : NamedModel K n) (v : Value K) : Except (Failure K) (Vec K n) := do
  let values ← v.toReals
  let some values := values.fill? named.essential.length | throw .shape
  let some positions := named.essential.mapM (position? n) | throw .index
  return (List.zip positions values.toList).foldl (fun j p => Vec.put j p.1 p.2) (Vec.zeros n)

def withNewton (named : NamedModel K n) (newton : List (String × Value K)) : Except (Failure K) (NamedModel K n) := do
  return { named with newton, model.newton := ← Newton.Settings.ofNamed newton }

end NamedModel

namespace SolverSettings

def section? (entries : List (Value K × Value K)) (name : String) : Except (Failure K) (Value K) :=
  (Value.named? entries name).elim (.error (.missingKey (Text.quoted name))) .ok

/-- The settings of a section as names with values. -/
def namedSection (v : Value K) : Except (Failure K) (List (String × Value K)) :=
  match v with
  | .map entries => entries.mapM fun e =>
    match e.1 with
    | .text name => .ok (name, e.2)
    | _ => .error .wrongType
  | _ => .error .wrongType

/-- The solver context of a matrix for a section of the settings. -/
def linearSolver {n : Nat} (entries : List (Value K × Value K)) (A : Sparse K n n) (sectionName label : String) :
    Except (Failure K) (Krylov.Solver K) := do
  let named ← namedSection (← section? entries sectionName)
  if named.any fun e => ["mat", "backend", "iterative_mode", "name"].contains e.1 then throw .wrongType
  let backend ← section? entries "backend"
  Krylov.Solver.ofNamed ⟨n, n, A⟩ (named ++
    [("backend", backend), ("iterative_mode", .bool true), ("name", .text label)])

/-- The multigrid solver of a matrix, if the settings ask for it. -/
def multigridSolver? {n : Nat} (entries : List (Value K × Value K)) (A : Sparse K n n) :
    Except (Failure K) (Option (Krylov.Solver K)) := do
  unless (← section? entries "use_amg").isTrue do return none
  let .map amg ← section? entries "amg" | throw .wrongType
  let solver ← Krylov.Solver.ofNamed ⟨n, n, A⟩
    [("backend", ← section? entries "backend"), ("method", .text "cg"), ("preconditioner", .text "amg"),
      ("rtol", ← section? amg "rtol"), ("max_iter", ← section? amg "max_iter"),
      ("iterative_mode", .bool false), ("name", .text "K_amg")]
  return some solver

/-- The entries of a map, or of a sequence of keys and values. -/
def pairs (v : Value K) : Except (Failure K) (List (Value K × Value K)) :=
  match v with
  | .map entries => .ok entries
  | v => do
    let pairs ← (← v.parts).mapM fun item => do
      match ← item.parts with
      | [key, value] => return (key, value)
      | _ => throw .shape
    return Value.ofPairs pairs

/-- The preconditioner of the step and the settings of Newton's method by name. -/
def newton (entries : List (Value K × Value K)) :
    Except (Failure K) (StepPreconditioner × List (String × Value K)) := do
  let entries ← pairs (← section? entries "newton")
  let kind ← section? entries "preconditioner"
  let others := entries.filter fun e => !(Value.sameKey e.1 (.text "preconditioner"))
  let preconditioner ← match kind with
    | .text name => (StepPreconditioner.ofName? name).elim (.error (.unknownNewtonPreconditioner name)) .ok
    | v => .error (.unknownNewtonPreconditioner v.plain)
  return (preconditioner, ← namedSection (.map others))

end SolverSettings

namespace ModelDescription

/-- The description that named settings give. What is not named has its usual value. -/
def ofNamed (named : List (String × Value K)) : ModelDescription K :=
  let value (name : String) (default : Value K) : Value K := (Krylov.namedValue? named name).getD default
  { markers := value "ess_bdr" (.list (List.replicate 4 (.int 1)))
    nodes := match value "ess_tdof_list" .null with
      | .null => none
      | v => some v
    viscosity := value "viscosity" (.int 0)
    resistivity := value "resistivity" (.int 0)
    solver := value "solver_spec" .null }

/-- The indices of the essential nodes, in increasing order and without repetitions. -/
def essentialIndices (d : ModelDescription K) (m : Mesh K) : Except (Failure K) (List Int) := do
  match d.nodes with
  | none => return (← m.essentialNodes (← d.markers.indices)).map fun (i : Fin m.nodes) => (i : Int)
  | some nodes =>
    return ((← nodes.indices).mergeSort fun (i j : Int) => decide (i ≤ j)).eraseDups

def toModel (d : ModelDescription K) (m : Mesh K) : Except (Failure K) (NamedModel K m.nodes) := do
  let viscosity ← d.viscosity.toReal
  let resistivity ← d.resistivity.toReal
  let solver ← SolverSettings.fill d.solver
  let essential ← d.essentialIndices m
  let ess ← (Essential.ofIndices? m.nodes essential).elim (.error .index) Except.ok
  let ops := Operators.ofMesh m ess viscosity resistivity
  let massSolver ← SolverSettings.linearSolver solver ops.massSystem "mass" "M_solver"
  let stiffnessSolver ←
    SolverSettings.linearSolver solver ops.stiffnessSystem "stiffness" "K_solver"
  let multigridSolver ← SolverSettings.multigridSolver? solver ops.stiffnessSystem
  let (preconditioner, named) ← SolverSettings.newton solver
  let newton ← Newton.Settings.ofNamed named
  let model : Model K m.nodes :=
    { ops with
      massSolve := massSolver.toLinearSolve m.nodes
      stiffnessSolve := stiffnessSolver.toLinearSolve m.nodes
      multigridSolve := multigridSolver.map fun s => s.toLinearSolve m.nodes
      newton, preconditioner
      linear := newton.minimalResidual }
  return { model, essential, solver, newton := Newton.Settings.complete named }

end ModelDescription

end Magnetofluid
