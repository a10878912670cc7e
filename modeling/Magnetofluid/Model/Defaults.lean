import Magnetofluid.Value.Cast

/-!
# Defaults of the solver settings

The settings of the linear and nonlinear solvers are a map of maps. `SolverSettings.fill` completes a partial one:
a section that is a map replaces only the settings it names, anything else replaces the whole section.
-/

namespace Magnetofluid

def Value.ofNames {K : Type} (entries : List (String × Value K)) : Value K :=
  .map (entries.map fun e => (.text e.1, e.2))

def Value.named? {K : Type} [RealText K] (entries : List (Value K × Value K)) (name : String) :
    Option (Value K) :=
  Value.lookup? entries (.text name)

namespace SolverSettings

variable {K : Type} [RealText K]

/-- The settings that nothing was said about. -/
def defaults : List (Value K × Value K) :=
  let number (x : K) : Value K := .real x
  let entry (name : String) (value : Value K) : Value K × Value K := (.text name, value)
  [entry "backend" (.text "scipy"),
    entry "mass" (.ofNames
      [("method", .text "cg"), ("preconditioner", .text "jacobi"), ("rtol", number 1e-12),
        ("atol", number 0.0), ("max_iter", .int 2000)]),
    entry "stiffness" (.ofNames
      [("method", .text "cg"), ("preconditioner", .text "jacobi"), ("rtol", number 1e-7),
        ("atol", number 0.0), ("max_iter", .int 2000)]),
    entry "use_amg" (.bool false),
    entry "amg" (.ofNames [("rtol", number 1e-7), ("max_iter", .int 200)]),
    entry "newton" (.ofNames
      [("rtol", number 1e-8), ("atol", number 1e-12), ("max_iter", .int 20), ("alpha", number 1.0),
        ("linear_rtol", number 1e-8), ("linear_atol", number 0.0), ("linear_max_iter", .int 500),
        ("restart", .int 50), ("print_level", .int 0), ("preconditioner", .text "block")])]

def setSection (entries : List (Value K × Value K)) (key value : Value K) : List (Value K × Value K) :=
  match value, Value.lookup? entries key with
  | .map new, some (.map old) =>
    Value.insert key (.map (new.foldl (fun es e => Value.insert e.1 e.2 es) old)) entries
  | _, _ => Value.insert key value entries

/-- The settings given, completed by the defaults. Nothing at all may be given as any empty value. -/
def fill (given : Value K) : Except (Failure K) (List (Value K × Value K)) := do
  if !given.isTrue then return defaults
  return (← given.toEntries).foldl (fun entries e => setSection entries e.1 e.2) defaults

end SolverSettings

end Magnetofluid
