import Magnetofluid.Initial.Configuration
import Magnetofluid.Settings.Configuration
import Magnetofluid.Simulation.Evolution

/-!
# Schedules

When a simulation steps, how, and when it ends, and how often it writes. The settings of a schedule are looked up when
they are used: one that is missing or of the wrong kind fails then and not before.
-/

namespace Magnetofluid

/-- The sections of a configuration as values of any kind. -/
structure RawSections (K : Type) where
  options : Value K
  grid : Value K
  properties : Value K
  initial : Value K
  numerics : Value K
  solver : Value K

/-- What a simulation looks up on its way. -/
structure Schedule (K : Type) where
  integration : Setting K Integration
  /-- The size of a step as it is given. -/
  dt : Setting K (Value K)
  tEnd : Setting K (Number K)
  maxIt : Setting K (Number K)
  silent : Setting K Bool
  /-- The number of steps from one snapshot to the next. -/
  writeFreq : Setting K (Number K)

variable {K : Type} [RealText K]

/-- The entry of a name in a value that should be a map. -/
def Value.field (v : Value K) (name : String) : Setting K (Value K) :=
  match v with
  | .map entries => Value.required entries name
  | _ => .error .wrongType

namespace RawSections

def ofDocument (document : Value K) : Setting K (RawSections K) := do
  return { options := ← document.field "options", grid := ← document.field "grid"
           properties := ← document.field "properties", initial := ← document.field "initial"
           numerics := ← document.field "numerics", solver := ← document.field "solver" }

/-- The sections of a configuration that was read. -/
def ofConfiguration (c : Settings.Configuration K) : RawSections K where
  options := .map c.options.toEntries
  grid := .map c.grid.toEntries
  properties := .map c.properties.toEntries
  initial := .map c.initial.toEntries
  numerics := .map c.numerics.toEntries
  solver := .map c.solver.toEntries

/-- The sections as one document, with the version of the library. -/
def toDocument (s : RawSections K) (version : String) : Value K :=
  .ofNames [("version", .text version), ("options", s.options), ("grid", s.grid),
    ("properties", s.properties), ("initial", s.initial), ("numerics", s.numerics), ("solver", s.solver)]

/-- A section that should be a map, with an entry set. -/
def setField (v : Value K) (name : String) (new : Value K) : Setting K (Value K) :=
  match v with
  | .map entries => .ok (.map (Value.insert (.text name) new entries))
  | _ => .error .wrongType

/-- The sections with a setting of one of them set. -/
def set (s : RawSections K) (name : Settings.SectionName) (key : String) (new : Value K) :
    Setting K (RawSections K) := do
  match name with
  | .options => return { s with options := ← setField s.options key new }
  | .grid => return { s with grid := ← setField s.grid key new }
  | .properties => return { s with properties := ← setField s.properties key new }
  | .initial => return { s with initial := ← setField s.initial key new }
  | .numerics => return { s with numerics := ← setField s.numerics key new }
  | .solver => return { s with solver := ← setField s.solver key new }

/-- How steps are taken: what is not implicit is explicit, and what is not Euler's scheme is the midpoint rule. -/
def integration (s : RawSections K) : Setting K Integration := do
  if let .text name ← s.numerics.field "integrator" then
    if Settings.Integrator.ofName? name = some .implicit then return .implicit
  if let .text name ← s.numerics.field "scheme" then
    if Settings.Scheme.ofName? name = some .euler then return .euler
  return .midpoint

def schedule (s : RawSections K) : Schedule K where
  integration := s.integration
  dt := s.numerics.field "dt"
  tEnd := do (← s.numerics.field "t_end").toNumber
  maxIt := do (← s.numerics.field "max_it").toNumber
  silent := return (← s.options.field "silent").isTrue
  writeFreq := do (← s.options.field "write_freq").toNumber

end RawSections

namespace Number

/-- Whether an integer is at least a number. -/
def atMost (x : Number K) (i : Int) : Bool :=
  match x with
  | .int j => decide (j ≤ i)
  | .real y => Scalar.le y (Scalar.ofInt i)

/-- Whether an integer is a multiple of a number. -/
def divides (x : Number K) (i : Int) : Setting K Bool :=
  match x with
  | .int j => if j = 0 then .error .moduloByZero else .ok (i % j = 0)
  | .real y =>
    if Scalar.isZero y then .error .moduloByZero
    else .ok ((RealText.toBinary (Scalar.ofInt i : K)).isMultiple (RealText.toBinary y))

/-- A number of steps that brings an integer from `i` to at least the number. Where there is none, it is more than can
ever be taken. -/
def stepsFrom (i : Int) : Number K → Nat
  | .int j => (j - i).toNat
  | .real y =>
    match RealText.truncate? y with
    | some j => (j + 1 - i).toNat
    | none => if Scalar.lt y 0 then 0 else Nat.pow 2 64

end Number

end Magnetofluid
