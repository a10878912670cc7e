import Magnetofluid.Failure
import Magnetofluid.Value.Basic

/-!
# Texts of failures

The message of each cause that has one. Causes that say nothing beyond their kind have none.
-/

namespace Magnetofluid

/-- A shape as it is written in messages. -/
def shapeText : List Nat → String
  | [n] => "(" ++ toString n ++ ",)"
  | shape => "(" ++ Text.joined ", " (shape.map toString) ++ ")"

/-- What a function of position is called in its role. -/
def FunctionRole.name : FunctionRole → String
  | coefficient => "Coefficient"
  | source => "Source term"
  | electricField => "Electric field"
  | initialCurrent => "Initial current"

def SettingRule.message : SettingRule → String
  | outputFrequency => "Output frequency must be positive"
  | cellCount => "Need at least one cell in each direction."
  | lengthX => "Must specify grid size (Nx) with either dx or Lx."
  | lengthY => "Must specify grid size (Ny) with either dy or Ly."
  | markerCount => "Need 4 essential boundary markers (bottom, right, top, left)."
  | markerValue => "Essential boundary markers must be 0 or 1."
  | viscosity => "Specify a (non-negative) viscosity"
  | resistivity => "Specify a (non-negative) resistivity"
  | initialCase => "Specify a valid initial condition ('wave', 'tearing', 'coalescence')"
  | sheetWidth => "Sheet width parameter (lambda) must be positive"
  | coalescence => "Coalescence parameter (eps) must be in [0, 1)"
  | integrator => "Time integrator must be 'explicit' or 'implicit'"
  | scheme => "Explicit scheme must be 'euler' or 'rk2'"
  | timeStep => "Time step must be positive"
  | krylovMethod => "Krylov method must be 'cg' or 'gmres'"
  | krylovPreconditioner => "Preconditioner must be one of 'jacobi', 'ilu', 'amg', 'none'"
  | backend => "Linear algebra backend must be one of ('scipy', 'petsc')"
  | newtonPreconditioner =>
    "Newton preconditioner must be one of 'block', 'ilu', 'jacobi', 'none'"
  | newtonDamping => "Newton damping (alpha) must be in (0, 1]"
  | missingGrid => "Missing mandatory section 'grid'."

/-- A number as it is written in messages. -/
def Number.text {K : Type} [RealText K] : Number K → String
  | .int i => toString i
  | .real x => RealText.write x

namespace Failure

def message? {K : Type} [RealText K] : Failure K → Option String
  | emptyGrid => some "Need at least one square in each direction."
  | markerCount got => some s!"Expected 4 boundary markers, got {got}."
  | notAFunction role => some (role.name ++ " must be callable as fun(x, y).")
  | stateShape n got => some
      s!"State vector must have length 3 x {n} = {3 * n}, got shape {shapeText got}."
  | unknownBackend name => some
      ("Unknown linear algebra backend '" ++ name ++ "', expected one of ('scipy', 'petsc').")
  | backendUnavailable => some
      ("petsc4py is required for the PETSc backend but is not installed.\n" ++
        "Install ResMHD with the 'petsc' extra or use backend: scipy.")
  | unknownMethod name => some ("Unknown Krylov method '" ++ name ++ "'.")
  | unknownPreconditioner name => some ("Unknown preconditioner '" ++ name ++ "'.")
  | zeroDiagonal => some "Jacobi preconditioner needs a zero-free diagonal."
  | noMatrix => some "Must call set_operator() before mult()"
  | notConverged solver iterations reason => some
      s!"{solver} did not converge (iterations: {iterations}, reason: {reason})"
  | noSystem => some "Newton solver has no operator, call set_operator() first."
  | newtonDiverged iterations norm =>
    let size := RealText.scientific 3 norm
    some s!"Newton solver did not converge after {iterations} iterations (residual norm: {size})"
  | unknownNewtonPreconditioner name => some
      ("Unknown Newton preconditioner '" ++ name ++
        "', expected one of ('block', 'ilu', 'jacobi', 'none').")
  | stepNotPositive dt => some ("Time step must be positive, got " ++ dt.text ++ ".")
  | stepIsFalse => some "Time step must be positive, got False."
  | noStep => some "Residual evaluated before set_parameters()."
  | noCurrent => some
      "Residual evaluated without a current field, call set_current() first."
  | currentMismatch => some "Current field does not match the discretization."
  | amgReleased => some "AMG solver has been destroyed."
  | unknownCase name => some
      ("Unknown initial condition '" ++ name ++
        "', expected one of ('wave', 'tearing', 'coalescence').")
  | divisionByZero => some "float division by zero"
  | missingKey key => some key
  | badReal quoted => some ("could not convert string to float: " ++ quoted)
  | badInteger quoted => some
      ("invalid literal for int() with base 10: " ++ .ofList (quoted.toList.take 200))
  | nanToInteger => some "cannot convert float NaN to integer"
  | infinityToInteger => some "cannot convert float infinity to integer"
  | integerTooLarge => some "int too large to convert to float"
  | rejected rule => some rule.message
  | outputNotEmpty => some "Output path exists and is not empty."
  | shape | index | unknownBlock | singular | negativeTolerance | noRounds | moduloByZero | overflow | wrongType
  | textOperand | wrongStructure | tooManyDigits | indexTooLarge | badDocument | unreadable | unknownWord | notText | refused _ => none

end Failure

end Magnetofluid
