import Magnetofluid.Settings.Entry

/-!
# Grid settings

The rectangle and its squares. In each direction either the length of the rectangle or the size of a square is
given, and the other follows.
-/

namespace Magnetofluid.Settings

variable {K : Type} [RealText K]

/-- The extent of the grid in one direction, by the size that was given. -/
inductive Extent (K : Type)
  | ofLength (length : K)
  | ofSpacing (spacing : K)

namespace Extent

def length (e : Extent K) (count : K) : K :=
  match e with
  | ofLength length => length
  | ofSpacing spacing => spacing * count

/-- The size of one of `count` squares. -/
def spacing (e : Extent K) (count : K) : K :=
  match e with
  | ofLength length => length / count
  | ofSpacing spacing => spacing

def toEntries (e : Extent K) (count : K) (lengthName spacingName : String) : Entries K :=
  let length := entry lengthName (.real (e.length count))
  let spacing := entry spacingName (.real (e.spacing count))
  match e with
  | ofLength _ => [length, spacing]
  | ofSpacing _ => [spacing, length]

def ofEntries (es : Entries K) (lengthName spacingName : String) (rule : SettingRule) :
    Except (Failure K) (Extent K) := do
  match Value.named? es lengthName, Value.named? es spacingName with
  | some v, _ => return .ofLength (← v.toReal)
  | none, some v => return .ofSpacing (← v.toReal)
  | none, none => throw (.rejected rule)

end Extent

/-- The grid: the number of squares, the extents, the lower left corner, and a marker for each side, bottom, right,
top and left, that says whether it is essential. The counts are also kept as numbers of the number system. -/
structure Grid (K : Type) where
  nx : Int
  ny : Int
  columns : K
  rows : K
  x : Extent K
  y : Extent K
  x0 : K
  y0 : K
  essBdr : List Int

namespace Grid

def ofEntries (es : Entries K) : Except (Failure K) (Grid K) := do
  let nx ← (given es "Nx" (.int 16)).toInteger
  let ny ← (given es "Ny" (.int 16)).toInteger
  require .cellCount (1 ≤ nx && 1 ≤ ny)
  let x ← Extent.ofEntries es "Lx" "dx" .lengthX
  let columns ← Value.realOfInteger nx
  let y ← Extent.ofEntries es "Ly" "dy" .lengthY
  let rows ← Value.realOfInteger ny
  let x0 ← (given es "x0" (.real 0)).toReal
  let y0 ← (given es "y0" (.real 0)).toReal
  let essBdr ← (← (given es "ess_bdr" (.list (List.replicate 4 (.int 1)))).parts).mapM Value.toInteger
  require .markerCount (essBdr.length = 4)
  require .markerValue (essBdr.all fun b => b = 0 || b = 1)
  return { nx, ny, columns, rows, x, y, x0, y0, essBdr }

def toEntries (g : Grid K) : Entries K :=
  [entry "Nx" (.int g.nx), entry "Ny" (.int g.ny)] ++ g.x.toEntries g.columns "Lx" "dx" ++
    g.y.toEntries g.rows "Ly" "dy" ++
    [entry "x0" (.real g.x0), entry "y0" (.real g.y0),
      entry "ess_bdr" (.list (g.essBdr.map .int))]

end Grid

end Magnetofluid.Settings
