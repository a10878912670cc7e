import Magnetofluid.Krylov.Configuration
import Magnetofluid.Model.Preconditioner
import Magnetofluid.Settings.Entry

/-!
# Solver settings

The settings of the linear solvers and of Newton's method, as a section of a configuration gives them. Where nothing
is given the values are those of `SolverSettings.defaults`.
-/

namespace Magnetofluid.Settings

variable {K : Type} [RealText K]

inductive KrylovPreconditioner
  | jacobi
  | ilu
  | amg
  | none
deriving DecidableEq, Repr

namespace KrylovPreconditioner

def all : List KrylovPreconditioner := [jacobi, ilu, amg, none]

def name : KrylovPreconditioner → String
  | jacobi => "jacobi"
  | ilu => "ilu"
  | amg => "amg"
  | none => "none"

def ofName? (name : String) : Option KrylovPreconditioner := all.find? (·.name = name)

end KrylovPreconditioner

structure KrylovSolver (K : Type) where
  method : Krylov.Method
  preconditioner : KrylovPreconditioner
  rtol : K
  atol : K
  maxIter : Int

namespace KrylovSolver

def ofEntries (es : Entries K) (rtol maxIter : Value K) : Except (Failure K) (KrylovSolver K) := do
  let method ← (given es "method" (.text "cg")).toText
  let preconditioner ← (given es "preconditioner" (.text "jacobi")).toText
  let rtol ← (given es "rtol" rtol).toReal
  let atol ← (given es "atol" (.real 0.0)).toReal
  let maxIter ← (given es "max_iter" maxIter).toInteger
  let method ← choose .krylovMethod Krylov.Method.ofName? method
  let preconditioner ← choose .krylovPreconditioner KrylovPreconditioner.ofName? preconditioner
  return { method, preconditioner, rtol, atol, maxIter }

def toEntries (s : KrylovSolver K) : Entries K :=
  [entry "method" (.text s.method.name), entry "preconditioner" (.text s.preconditioner.name),
    entry "rtol" (.real s.rtol), entry "atol" (.real s.atol), entry "max_iter" (.int s.maxIter)]

end KrylovSolver

structure MultigridSolver (K : Type) where
  rtol : K
  maxIter : Int

namespace MultigridSolver

def ofEntries (es : Entries K) : Except (Failure K) (MultigridSolver K) := do
  return ⟨← (given es "rtol" (.real 1e-7)).toReal, ← (given es "max_iter" (.int 200)).toInteger⟩

def toEntries (s : MultigridSolver K) : Entries K :=
  [entry "rtol" (.real s.rtol), entry "max_iter" (.int s.maxIter)]

end MultigridSolver

structure NewtonSolver (K : Type) where
  rtol : K
  atol : K
  maxIter : Int
  alpha : K
  linearRtol : K
  linearAtol : K
  linearMaxIter : Int
  restart : Int
  printLevel : Int
  preconditioner : StepPreconditioner

namespace NewtonSolver

def ofEntries (es : Entries K) : Except (Failure K) (NewtonSolver K) := do
  let number (name : String) (default : K) := (given es name (.real default)).toReal
  let count (name : String) (default : Int) := (given es name (.int default)).toInteger
  let rtol ← number "rtol" 1e-8
  let atol ← number "atol" 1e-12
  let maxIter ← count "max_iter" 20
  let alpha ← number "alpha" 1.0
  let linearRtol ← number "linear_rtol" 1e-8
  let linearAtol ← number "linear_atol" 0.0
  let linearMaxIter ← count "linear_max_iter" 500
  let restart ← count "restart" 50
  let printLevel ← count "print_level" 0
  let preconditioner ← choose .newtonPreconditioner StepPreconditioner.ofName?
    (← (given es "preconditioner" (.text "block")).toText)
  require .newtonDamping (Scalar.lt 0 alpha && Scalar.le alpha 1)
  return { rtol, atol, maxIter, alpha, linearRtol, linearAtol, linearMaxIter, restart, printLevel,
           preconditioner }

def toEntries (s : NewtonSolver K) : Entries K :=
  [entry "rtol" (.real s.rtol), entry "atol" (.real s.atol), entry "max_iter" (.int s.maxIter),
    entry "alpha" (.real s.alpha), entry "linear_rtol" (.real s.linearRtol),
    entry "linear_atol" (.real s.linearAtol), entry "linear_max_iter" (.int s.linearMaxIter),
    entry "restart" (.int s.restart), entry "print_level" (.int s.printLevel),
    entry "preconditioner" (.text s.preconditioner.name)]

end NewtonSolver

structure Solver (K : Type) where
  backend : Krylov.Backend
  mass : KrylovSolver K
  stiffness : KrylovSolver K
  useAmg : Bool
  amg : MultigridSolver K
  newton : NewtonSolver K

namespace Solver

def ofEntries (es : Entries K) : Except (Failure K) (Solver K) := do
  let part (name : String) := (given es name (.map [])).toEntries
  let backend ← choose .backend Krylov.Backend.ofName? (← (given es "backend" (.text "scipy")).toText)
  let mass ← KrylovSolver.ofEntries (← part "mass") (.real 1e-12) (.int 2000)
  let stiffness ← KrylovSolver.ofEntries (← part "stiffness") (.real 1e-7) (.int 2000)
  let useAmg := (given es "use_amg" (.bool false)).isTrue
  let amg ← MultigridSolver.ofEntries (← part "amg")
  let newton ← NewtonSolver.ofEntries (← part "newton")
  return { backend, mass, stiffness, useAmg, amg, newton }

def toEntries (s : Solver K) : Entries K :=
  [entry "backend" (.text s.backend.name), entry "mass" (.map s.mass.toEntries),
    entry "stiffness" (.map s.stiffness.toEntries), entry "use_amg" (.bool s.useAmg),
    entry "amg" (.map s.amg.toEntries), entry "newton" (.map s.newton.toEntries)]

end Solver

end Magnetofluid.Settings
