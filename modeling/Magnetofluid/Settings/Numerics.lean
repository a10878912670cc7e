import Magnetofluid.Settings.Entry

/-!
# Settings of the time integration
-/

namespace Magnetofluid.Settings

inductive Integrator
  | explicit
  | implicit
deriving DecidableEq, Repr

namespace Integrator

def all : List Integrator := [explicit, implicit]

def name : Integrator → String
  | explicit => "explicit"
  | implicit => "implicit"

def ofName? (name : String) : Option Integrator := all.find? (·.name = name)

end Integrator

/-- The explicit schemes: Euler's, and the midpoint rule. -/
inductive Scheme
  | euler
  | rk2
deriving DecidableEq, Repr

namespace Scheme

def all : List Scheme := [euler, rk2]

def name : Scheme → String
  | euler => "euler"
  | rk2 => "rk2"

def ofName? (name : String) : Option Scheme := all.find? (·.name = name)

end Scheme

/-- How a run steps through time, and when it ends. -/
structure Numerics (K : Type) where
  integrator : Integrator
  scheme : Scheme
  dt : K
  tEnd : K
  maxIt : Int

namespace Numerics

variable {K : Type} [RealText K]

/-- The settings that a section gives. The numbers are read before the names are looked up. -/
def ofEntries (es : Entries K) : Except (Failure K) (Numerics K) := do
  let integrator ← (given es "integrator" (.text "implicit")).toText
  let scheme ← (given es "scheme" (.text "rk2")).toText
  let dt ← (given es "dt" (.real 1e-2)).toReal
  let tEnd ← (given es "t_end" (.real 1.0)).toReal
  let maxIt ← (given es "max_it" (.int 100000)).toInteger
  let integrator ← choose .integrator Integrator.ofName? integrator
  let scheme ← choose .scheme Scheme.ofName? scheme
  require .timeStep (!Scalar.le dt 0)
  return { integrator, scheme, dt, tEnd, maxIt }

def toEntries (n : Numerics K) : Entries K :=
  [entry "integrator" (.text n.integrator.name), entry "scheme" (.text n.scheme.name),
    entry "dt" (.real n.dt), entry "t_end" (.real n.tEnd), entry "max_it" (.int n.maxIt)]

end Numerics

end Magnetofluid.Settings
