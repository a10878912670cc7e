import Magnetofluid.Initial.Basic
import Magnetofluid.Krylov.Configuration
import Magnetofluid.Model.Defaults

/-!
# Initial conditions from settings

The initial condition that settings name, with its parameters taken from the settings of the initial state and of
the grid, or given by name.
-/

namespace Magnetofluid

variable {K : Type} [RealText K]

def Value.required (entries : List (Value K × Value K)) (name : String) : Except (Failure K) (Value K) :=
  (Value.named? entries name).elim (.error (.missingKey (Text.quoted name))) .ok

namespace InitialCase

/-- A number, if its square is in range. -/
def squarable (x : K) : Except (Failure K) K :=
  if RealText.isInfinite (x * x) && !RealText.isInfinite x then .error .overflow else .ok x

/-- A wave on a rectangle of some width. -/
def checkedWave (alpha lx : Value K) : Except (Failure K) (InitialCase K) := do
  let lx ← lx.toScalar
  if Scalar.isZero lx then throw .divisionByZero
  let alpha ← alpha.toOperand
  discard (squarable (InitialCondition.waveNumber lx))
  return .wave alpha lx

/-- A sheet at some height. -/
def checkedTearing (alpha lam : Value K) (yc : K) : Except (Failure K) (InitialCase K) := do
  let lam ← lam.toOperand
  return .tearing (← alpha.toOperand) lam yc

/-- The strength of a chain of islands, whose square must be in range. -/
def checkedStrength (eps : Value K) : Except (Failure K) Unit := do
  match ← eps.toNumber with
  | .int i => discard (Value.realOfInteger (i * i) : Except (Failure K) K)
  | .real x => discard (squarable x)

def checkedCoalescence (alpha lam eps : Value K) (yc : K) : Except (Failure K) (InitialCase K) := do
  let lam ← lam.toOperand
  let strength ← eps.toOperand
  let alpha ← alpha.toOperand
  checkedStrength eps
  return .coalescence alpha lam strength yc

/-- The case that settings of the initial state name, on the rectangle of the settings of the grid. All settings are
looked up before the parameters of the case are read as numbers. -/
def ofSettings (initial grid : List (Value K × Value K)) : Except (Failure K) (InitialCase K) := do
  let initialCase ← Value.required initial "case"
  let y0 ← Value.required grid "y0"
  let ly ← Value.required grid "Ly"
  let half := 0.5 * (← ly.toScalar)
  let yc := (← y0.toScalar) + half
  let given := Value.required initial
  let .text name := initialCase | throw (.unknownCase initialCase.plain)
  match CaseName.ofText? name with
  | some .wave =>
    let alpha ← given "alpha"
    checkedWave alpha (← Value.required grid "Lx")
  | some .tearing =>
    let alpha ← given "alpha"
    checkedTearing alpha (← given "lambda") yc
  | some .coalescence =>
    let alpha ← given "alpha"
    let lam ← given "lambda"
    checkedCoalescence alpha lam (← given "eps") yc
  | none => throw (.unknownCase name)

/-- The case that settings name. Neither of them must be anything else than a map. -/
def ofValues (initial grid : Value K) : Except (Failure K) (InitialCase K) := do
  let .map initial := initial | throw .wrongType
  discard (Value.required initial "case")
  let .map grid := grid | throw .wrongType
  ofSettings initial grid

/-- The case of a name with its parameters by name; only the height of a sheet may be left out. -/
def ofNamed (name : CaseName) (parameters : List (String × Value K)) : Except (Failure K) (InitialCase K) := do
  let needed := match name with
    | .wave => ["alpha", "Lx"]
    | .tearing => ["alpha", "lam"]
    | .coalescence => ["alpha", "lam", "eps"]
  let optional := if name = .wave then [] else ["yc"]
  if parameters.any fun p => !(needed ++ optional).contains p.1 then throw .wrongType
  let value (key : String) : Except (Failure K) (Value K) :=
    (Krylov.namedValue? parameters key).elim (.error .wrongType) .ok
  let height : Except (Failure K) K := ((Krylov.namedValue? parameters "yc").getD (.int 0)).toOperand
  let alpha ← value "alpha"
  match name with
  | .wave => checkedWave alpha (← value "Lx")
  | .tearing =>
    let lam ← value "lam"
    checkedTearing alpha lam (← height)
  | .coalescence =>
    let lam ← value "lam"
    let eps ← value "eps"
    checkedCoalescence alpha lam eps (← height)

end InitialCase

end Magnetofluid
