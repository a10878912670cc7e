import Magnetofluid.Initial.Basic
import Magnetofluid.Settings.Entry

/-!
# Properties of the fluid and the initial state
-/

namespace Magnetofluid.Settings

variable {K : Type} [RealText K]

structure Properties (K : Type) where
  viscosity : K
  resistivity : K

namespace Properties

def ofEntries (es : Entries K) : Except (Failure K) (Properties K) := do
  let viscosity ← (given es "viscosity" (.real 1e-3)).toReal
  let resistivity ← (given es "resistivity" (.real 1e-3)).toReal
  require .viscosity (!Scalar.lt viscosity 0)
  require .resistivity (!Scalar.lt resistivity 0)
  return { viscosity, resistivity }

def toEntries (p : Properties K) : Entries K :=
  [entry "viscosity" (.real p.viscosity), entry "resistivity" (.real p.resistivity)]

end Properties

/-- The initial state: its case and parameters, whether it is kept up by a forcing, and the current on the essential
nodes, if that is not to be the current of the case. -/
structure Initial (K : Type) where
  case_ : CaseName
  alpha : K
  lam : K
  eps : K
  forcing : Bool
  jBdy : Option K

namespace Initial

def ofEntries (es : Entries K) : Except (Failure K) (Initial K) := do
  let case_ ← choose .initialCase CaseName.ofText? (← (given es "case" (.text "tearing")).toText)
  let alpha ← (given es "alpha" (.real 1e-3)).toReal
  let lam ← (given es "lambda" (.real 5.0)).toReal
  let eps ← (given es "eps" (.real 0.2)).toReal
  let forcing := (given es "forcing" (.bool true)).isTrue
  require .sheetWidth (!Scalar.le lam 0)
  require .coalescence (case_ != .coalescence || (Scalar.le 0 eps && Scalar.lt eps 1))
  let jBdy ← match given es "j_bdy" .null with
    | .null => pure none
    | v => do pure (some (← v.toReal))
  return { case_, alpha, lam, eps, forcing, jBdy }

def toEntries (i : Initial K) : Entries K :=
  [entry "case" (.text i.case_.text), entry "alpha" (.real i.alpha), entry "lambda" (.real i.lam),
    entry "eps" (.real i.eps), entry "forcing" (.bool i.forcing),
    entry "j_bdy" (i.jBdy.elim .null .real)]

end Initial

end Magnetofluid.Settings
