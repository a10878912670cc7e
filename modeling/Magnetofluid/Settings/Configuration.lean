import Magnetofluid.Settings.Grid
import Magnetofluid.Settings.Entry
import Magnetofluid.Settings.Numerics
import Magnetofluid.Settings.Options
import Magnetofluid.Settings.Physics
import Magnetofluid.Settings.Solver

/-!
# Configurations

A configuration has six sections. It is read from a value that is a map of sections; what is read is printed section
by section. Sections may come in any order, sections that are not there take their defaults after those that are,
and only the grid has none. Other entries are passed over.
-/

namespace Magnetofluid

namespace Settings

variable {K : Type} [RealText K]

inductive SectionName
  | options
  | grid
  | properties
  | initial
  | numerics
  | solver
deriving DecidableEq, Repr

namespace SectionName

/-- The sections in their usual order. -/
def all : List SectionName := [options, grid, properties, initial, numerics, solver]

def text : SectionName → String
  | options => "options"
  | grid => "grid"
  | properties => "properties"
  | initial => "initial"
  | numerics => "numerics"
  | solver => "solver"

def ofKey? : Value K → Option SectionName
  | .text s => all.find? (·.text = s)
  | _ => none

end SectionName

/-- A section that was read, of the kind that a name says. -/
inductive Section (K : Type)
  | options (s : Options)
  | grid (s : Grid K)
  | properties (s : Properties K)
  | initial (s : Initial K)
  | numerics (s : Numerics K)
  | solver (s : Solver K)

namespace Section

def toEntries : Section K → Entries K
  | options s => s.toEntries
  | grid s => s.toEntries
  | properties s => s.toEntries
  | initial s => s.toEntries
  | numerics s => s.toEntries
  | solver s => s.toEntries

def ofValue (name : SectionName) (v : Value K) : Except (Failure K) (Section K) := do
  let es ← v.toEntries
  match name with
  | .options => return .options (← Options.ofEntries es)
  | .grid => return .grid (← Grid.ofEntries es)
  | .properties => return .properties (← Properties.ofEntries es)
  | .initial => return .initial (← Initial.ofEntries es)
  | .numerics => return .numerics (← Numerics.ofEntries es)
  | .solver => return .solver (← Solver.ofEntries es)

/-- Reads a section and prints its settings. -/
def read (name : SectionName) (v : Value K) : Printing K (Section K) := do
  let s ← MonadExcept.ofExcept (ofValue name v)
  showAll s.toEntries
  return s

/-- Reads a section under a line with its name. -/
def readTitled (name : SectionName) (v : Value K) : Printing K (Section K) := do
  Printing.say ["- " ++ name.text ++ ":"]
  read name v

end Section

/-- The sections that were read so far. -/
structure Sections (K : Type) where
  options : Option Options
  grid : Option (Grid K)
  properties : Option (Properties K)
  initial : Option (Initial K)
  numerics : Option (Numerics K)
  solver : Option (Solver K)

namespace Sections

def none : Sections K := ⟨.none, .none, .none, .none, .none, .none⟩

def add (c : Sections K) : Section K → Sections K
  | .options s => { c with options := some s }
  | .grid s => { c with grid := some s }
  | .properties s => { c with properties := some s }
  | .initial s => { c with initial := some s }
  | .numerics s => { c with numerics := some s }
  | .solver s => { c with solver := some s }

def has (c : Sections K) : SectionName → Bool
  | .options => c.options.isSome
  | .grid => c.grid.isSome
  | .properties => c.properties.isSome
  | .initial => c.initial.isSome
  | .numerics => c.numerics.isSome
  | .solver => c.solver.isSome

/-- Reads the section of an entry, if its key names one. -/
def addEntry (c : Sections K) (e : Value K × Value K) : Printing K (Sections K) := do
  match SectionName.ofKey? e.1 with
  | some name => return c.add (← Section.readTitled name e.2)
  | .none => return c

def addDefault (c : Sections K) (name : SectionName) : Printing K (Sections K) := do
  if c.has name then return c else return c.add (← Section.readTitled name (.map []))

end Sections

/-- A complete configuration. -/
structure Configuration (K : Type) where
  options : Options
  grid : Grid K
  properties : Properties K
  initial : Initial K
  numerics : Numerics K
  solver : Solver K

namespace Configuration

def toEntries (c : Configuration K) : Entries K :=
  [entry "options" (.map c.options.toEntries), entry "grid" (.map c.grid.toEntries),
    entry "properties" (.map c.properties.toEntries), entry "initial" (.map c.initial.toEntries),
    entry "numerics" (.map c.numerics.toEntries), entry "solver" (.map c.solver.toEntries)]

/-- The configuration of sections, if all are there. Only the grid has no defaults. -/
def ofSections (c : Sections K) : Except (Failure K) (Configuration K) :=
  match c with
  | ⟨some options, some grid, some properties, some initial, some numerics, some solver⟩ =>
    .ok { options, grid, properties, initial, numerics, solver }
  | _ => .error (.rejected .missingGrid)

/-- Reads the sections of a document. -/
def readSections (document : Value K) : Printing K (Configuration K) := do
  let es ← MonadExcept.ofExcept document.toEntries
  let c ← es.foldlM Sections.addEntry Sections.none
  let c ← [.options, .properties, .initial, .numerics, .solver].foldlM Sections.addDefault c
  MonadExcept.ofExcept (ofSections c)

/-- Reads a configuration from a document, which may turn out to be none when it is looked at. -/
def read (document : Except (Failure K) (Value K)) : Printing K (Configuration K) := do
  Printing.say (Text.heading "PROBLEM SETUP")
  let c ← readSections (← MonadExcept.ofExcept document)
  Printing.say (Text.heading "PROBLEM SETUP COMPLETED")
  return c

end Configuration

end Settings

end Magnetofluid
