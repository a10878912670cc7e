import Magnetofluid.Krylov.Solver
import Magnetofluid.Value.Cast

/-!
# Solvers from named settings

A solver context as a caller asks for it: a matrix, a backend, and settings by name, of which those that are
not given take their defaults. The backend is looked at first, then the names, then the method, then the
preconditioner.
-/

namespace Magnetofluid.Krylov

variable {K : Type} [RealText K]

def namedValue? (named : List (String × Value K)) (name : String) : Option (Value K) :=
  (named.find? (·.1 = name)).map (·.2)

inductive Backend
  | serial
  /-- The distributed one, of which this program knows the name only. -/
  | distributed
deriving DecidableEq, Repr

namespace Backend

def all : List Backend := [serial, distributed]

def name : Backend → String
  | serial => "scipy"
  | distributed => "petsc"

def ofName? (name : String) : Option Backend := all.find? (·.name = name)

end Backend

/-- Checks that a backend is one that this program has. -/
def checkBackend (v : Value K) : Except (Failure K) Unit :=
  let named := match v with
    | .text s => Backend.ofName? s
    | _ => none
  match named with
  | some .serial => .ok ()
  | some .distributed => .error .backendUnavailable
  | none => .error (.unknownBackend v.plain)

namespace Settings

def names : List String :=
  ["method", "preconditioner", "rtol", "atol", "max_iter", "iterative_mode", "name"]

/-- A number as a tolerance. -/
def toleranceOf (x : Number K) : Setting K K :=
  match x with
  | .int i => (RealText.ofInteger? i).elim (.error .overflow) .ok
  | .real x => .ok x

/-- A relative tolerance, a number or its numeral. -/
def relative : Value K → Setting K K
  | .text s => (Text.real? s).elim (.error .unreadable) .ok
  | v => do toleranceOf (← v.toNumber)

/-- An absolute tolerance, a number. -/
def absolute : Value K → Setting K K
  | .null | .text "legacy" => .error .negativeTolerance
  | v => do toleranceOf (← v.toNumber)

/-- A limit on a count, an integer if there is any. -/
def limit : Value K → Setting K (Option Int)
  | .null => .ok none
  | .int i => .ok (some i)
  | .bool b => .ok (some (if b then 1 else 0))
  | _ => .error .wrongType

def kindOf : Value K → Kind
  | .null => .unset
  | .text s => Kind.ofName s
  | v => .other v.plain

/-- The settings that are given by name, the defaults for the others. -/
def ofNamed (named : List (String × Value K)) : Except (Failure K) (Settings K) := do
  if named.any fun e => !names.contains e.1 then throw .wrongType
  let value (name : String) (default : Value K) := (namedValue? named name).getD default
  let method ← match value "method" (.text "cg") with
    | .text s => (Method.ofName? s).elim (.error (.unknownMethod s)) .ok
    | v => .error (.unknownMethod v.plain)
  return {
    method
    preconditioner := kindOf (value "preconditioner" (.text "jacobi"))
    rtol := relative (value "rtol" (.real 1e-12))
    atol := absolute (value "atol" (.real 0))
    maxIter := limit (value "max_iter" (.int 2000))
    iterative := (value "iterative_mode" (.bool true)).isTrue
    name := (value "name" (.text "solver")).plain }

end Settings

namespace Solver

/-- The context of a matrix with settings by name. -/
def ofNamed (A : AnyMatrix K) (named : List (String × Value K)) : Except (Failure K) (Solver K) := do
  checkBackend ((namedValue? named "backend").getD (.text "scipy"))
  make A (← Settings.ofNamed (named.filter fun e => e.1 ≠ "backend"))

/-- Solves for vectors of unchecked length and puts the solution into the second one. Where that one is no guess, a
solution with a single entry fills it, whatever its length. -/
def solveAny (b x : Array K) : EStateM (Failure K) (Solver K) (Array K) := do
  let guess := if (← get).settings.iterative then x else Array.replicate b.size 0
  match Vec.ofArray? guess.size b with
  | some b =>
    let solution : AnyTensor K := ⟨[guess.size], ← solve b (Vec.ofEntries guess)⟩
    match solution.fill? x.size with
    | some y => return y.toArray
    | none => throw .shape
  | none =>
    if (← get).matrix.isNone then throw .noMatrix
    modify fun s => { s with report := { s.report with iterations := 0 } }
    throw .shape

end Solver

end Magnetofluid.Krylov
