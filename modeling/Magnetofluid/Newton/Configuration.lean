import Magnetofluid.Krylov.Configuration
import Magnetofluid.Newton.Solver

/-!
# Newton settings by name

The settings of a Newton iteration as a caller names them, and the lines that tell of an iteration.
-/

namespace Magnetofluid.Newton

variable {K : Type} [RealText K]

namespace Settings

def defaults : List (String × Value K) :=
  [("rtol", .real 1e-8), ("atol", .real 1e-12), ("max_iter", .int 20), ("alpha", .real 1),
    ("linear_rtol", .real 1e-8), ("linear_atol", .real 0), ("linear_max_iter", .int 500), ("restart", .int 50),
    ("print_level", .int 0)]

/-- All settings, with the values that are given for some of them. -/
def complete (named : List (String × Value K)) : List (String × Value K) :=
  defaults.map fun e => (e.1, (Krylov.namedValue? named e.1).getD e.2)

/-- The least integer that is at least a number; where there is none, one that no count reaches. -/
def ceiling : Number K → Int
  | .int i => i
  | .real x =>
    match RealText.truncate? x with
    | some i => if Scalar.le x (Scalar.ofInt i) then i else i + 1
    | none => if Scalar.lt x 0 then 0 else Nat.pow 2 64

/-- The length of the cycles for a number of unknowns, which it does not exceed. Only an integer can be a length, and a
truth value is not taken for one. -/
def restartOf (v : Value K) (n : Nat) : Setting K Int := do
  if let .null := v then return min 20 n
  if let .bool _ := v then throw .wrongType
  match ← v.toNumber with
  | .int i => return min i n
  | .real x => if Scalar.lt (n : K) x then return n else throw .wrongType

def ofNamed (named : List (String × Value K)) : Except (Failure K) (Settings K) := do
  if named.any fun e => (Krylov.namedValue? (defaults (K := K)) e.1).isNone then throw .wrongType
  let named := complete named
  let value (name : String) : Value K := (Krylov.namedValue? named name).getD .null
  return {
    rtol := (value "rtol").toScalar
    atol := do return (← (value "atol").toNumber).toScalar
    maxIter := do return ceiling (← (value "max_iter").toNumber)
    alpha := (value "alpha").toOperand
    linearRtol := Krylov.Settings.relative (value "linear_rtol")
    linearAtol := Krylov.Settings.absolute (value "linear_atol")
    linearMaxIter := Krylov.Settings.limit (value "linear_max_iter")
    restart := restartOf (value "restart")
    verbose := do return (← (value "print_level").toNumber).isPositive }

end Settings

/-- A count with blanks before it, three characters wide. -/
def count3 (n : Nat) : String :=
  let cs := Nat.toDigits 10 n
  .ofList (List.replicate (3 - cs.length) ' ' ++ cs)

/-- The line for an event, if it is told. -/
def Event.line? (verbose : Bool) : Event K → Option String
  | residual i norm =>
    let size := RealText.scientific 6 norm
    if verbose then some s!"Newton iteration {count3 i}: residual norm {size}" else none
  | stalled i => some s!"Newton GMRES did not reach tolerance in iteration {i}"
  | converged i norm =>
    let size := RealText.scientific 3 norm
    if verbose then some s!"Newton converged in {i} iterations, residual norm {size}" else none
  | gaveUp i norm =>
    let size := RealText.scientific 3 norm
    some s!"Newton did not converge: {i} iterations, residual norm {size}"

/-- The lines of all events so far. -/
def Progress.lines (p : Progress K) (settings : Settings K) : List String :=
  p.events.reverse.filterMap (Event.line? (settings.verbose.toOption.getD false))

end Magnetofluid.Newton
