import Magnetofluid.Krylov.Configuration

/-!
# Solver sessions

A solver and the vector it last computed, from which the next solve starts.
-/

namespace Magnetofluid.Krylov

variable {K : Type} [RealText K]

/-- A solver in use. -/
structure Session (K : Type) where
  solver : Solver K
  x : Array K

namespace Session

def onSolver {α : Type} (act : EStateM (Failure K) (Solver K) α) : EStateM (Failure K) (Session K) α := fun s =>
  match act.run s.solver with
  | .ok a solver => .ok a { s with solver }
  | .error e solver => .error e { s with solver }

/-- Solves from the last vector, or from another one that takes its place. -/
def solve (b : Array K) (start : Option (Array K)) : EStateM (Failure K) (Session K) Unit := do
  modify fun s => { s with x := start.getD s.x }
  let x ← onSolver (Solver.solveAny b (← get).x)
  modify fun s => { s with x }

end Session

end Magnetofluid.Krylov
