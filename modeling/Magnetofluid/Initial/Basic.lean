import Magnetofluid.Scalar

/-!
# Initial conditions

The initial flux, its current `j = Δψ`, and the current of the unperturbed state, whose product with the
resistivity is the forcing that keeps that state from decaying.

* `wave`: a uniform field with a standing wave.
* `tearing`: a current sheet with a perturbation that tears it.
* `coalescence`: a chain of islands with the same perturbation.
-/

namespace Magnetofluid

/-- A function of position. -/
abbrev Profile (K : Type) := K → K → K

/-- The coordinates that a profile is written with. -/
inductive Coordinates
  | x
  | y
  | both
deriving DecidableEq, Repr

/-- Initial flux and current, and the current of the unperturbed state with the coordinates that it is written with. -/
structure InitialCondition (K : Type) where
  psi : Profile K
  j : Profile K
  background : Profile K
  coordinates : Coordinates

namespace InitialCondition

variable {K : Type} [Elementary K]

open Elementary

/-- The forcing that balances resistive decay of the unperturbed state. -/
def electricField (c : InitialCondition K) (resistivity : K) : Profile K :=
  fun x y => resistivity * c.background x y

/-- The wave number of a wave that fits into a length once. -/
def waveNumber (lx : K) : K := 2.0 * pi / lx

/-- A standing wave of amplitude `alpha` in a uniform field on a rectangle of width `lx`. -/
def wave (alpha lx : K) : InitialCondition K :=
  let kx := waveNumber lx
  { psi := fun x y => -y + alpha * sin (pi * y) * cos (kx * x)
    j := fun x y => -(pi * pi + kx * kx) * alpha * sin (pi * y) * cos (kx * x)
    background := fun _ _ => 0
    coordinates := .x }

/-- The perturbation of a sheet. -/
def mode : Profile K := fun x y => cos (0.5 * pi * y) * cos (pi * x)

/-- The Laplacian of the perturbation is this multiple of it. -/
def modeEigenvalue : K := -1.25 * (pi * pi)

def perturbed (alpha : K) (coordinates : Coordinates) (psi j : Profile K) : InitialCondition K where
  psi x y := psi x y + alpha * mode x y
  j x y := j x y + modeEigenvalue * alpha * mode x y
  background := j
  coordinates

/-- A sheet of inverse width `lam` around the height `yc`. -/
def tearing (alpha lam yc : K) : InitialCondition K :=
  perturbed alpha .y (fun _ y => log (cosh (lam * (y - yc))) / lam) fun _ y =>
    let c := cosh (lam * (y - yc))
    lam / (c * c)

/-- A chain of islands of strength `eps`. -/
def coalescence (alpha lam eps yc : K) : InitialCondition K :=
  perturbed alpha .both (fun x y => log (cosh (lam * (y - yc)) + eps * cos (lam * x)) / lam) fun x y =>
    let c := cosh (lam * (y - yc)) + eps * cos (lam * x)
    lam * (1 - eps * eps) / (c * c)

end InitialCondition

inductive CaseName
  | wave
  | tearing
  | coalescence
deriving DecidableEq, Repr

namespace CaseName

def all : List CaseName := [wave, tearing, coalescence]

def text : CaseName → String
  | wave => "wave"
  | tearing => "tearing"
  | coalescence => "coalescence"

def ofText? (s : String) : Option CaseName := all.find? (·.text = s)

end CaseName

/-- An initial condition by its parameters. -/
inductive InitialCase (K : Type)
  | wave (alpha lx : K)
  | tearing (alpha lam yc : K)
  | coalescence (alpha lam eps yc : K)
deriving Repr

def InitialCase.condition {K : Type} [Elementary K] : InitialCase K → InitialCondition K
  | wave alpha lx => .wave alpha lx
  | tearing alpha lam yc => .tearing alpha lam yc
  | coalescence alpha lam eps yc => .coalescence alpha lam eps yc

end Magnetofluid
