import Magnetofluid.Model.Session

/-!
# Inventories

What a session holds, by name: what is not set, and how its solvers are set up.
-/

namespace Magnetofluid.Session

variable {K : Type} [RealText K] {m : Mesh K}

def marked (names : List (String × Bool)) : List String := (names.filter (·.2)).map (·.1)

/-- What the model of a session does not hold. -/
def unset (s : Session m) : List String :=
  marked [("Nv", s.memory.flow.isNone), ("Nb", s.memory.field.isNone), ("E0", s.memory.forcing.isNone),
    ("DRe", s.model.viscous.isNone), ("DSl", s.model.resistive.isNone), ("K_amg", !s.memory.multigrid)]

/-- What the step of a session does not hold. -/
def unsetInStep (s : Session m) : List String :=
  let step := s.memory.step
  marked (["dt", "phi", "psi", "w"].map (fun name => (name, step.step.isNone)) ++
    [("E0", step.forcing.isNone), ("DRe", s.model.viscous.isNone), ("DSl", s.model.resistive.isNone),
      ("Nv", step.flow.isNone), ("Nb", step.field.isNone)])

/-- The set-up of a solver: its name, method, preconditioner, tolerances, largest number of iterations, and whether it
starts from the last vector. What is not fixed is taken from a section of the solver settings. -/
def solverSetUp (s : Session m) (name sectionName : String) (fixed : List (String × Value K)) : List (Value K) :=
  let entries := match Value.named? s.named.solver sectionName with
    | some (.map es) => es
    | _ => []
  let value (key : String) : Value K :=
    ((fixed.find? (·.1 = key)).map (·.2)).getD ((Value.named? entries key).getD .null)
  .text name :: ["method", "preconditioner", "rtol", "atol", "max_iter", "iterative_mode"].map value

def solverSetUps (s : Session m) : List (List (Value K)) :=
  let kept := [("iterative_mode", Value.bool true)]
  let multigrid := [("method", .text "cg"), ("preconditioner", .text "amg"), ("atol", .real 0),
    ("iterative_mode", Value.bool false)]
  [s.solverSetUp "M_solver" "mass" kept, s.solverSetUp "K_solver" "stiffness" kept] ++
    if s.memory.multigrid then [s.solverSetUp "K_amg" "amg" multigrid] else []

/-- The matrix of a name, if the session holds it. -/
def matrix? (s : Session m) (name : String) : Option (Sparse K m.nodes m.nodes) :=
  match name with
  | "M" => some s.model.mass
  | "K" => some s.model.stiffness
  | "KB" => some s.model.jump
  | "DRe" => s.model.viscous
  | "DSl" => s.model.resistive
  | "Mmat" => some s.model.massSystem
  | "Kmat" => some s.model.stiffnessSystem
  | "Nv" => s.memory.flow
  | "Nb" => s.memory.field
  | _ => none

end Magnetofluid.Session
