/-!
# Structured triangulations

A grid of `nx` by `ny` squares, each cut into two triangles along the diagonal from its upper left to its lower
right corner. Nodes are numbered row by row from the lower left; the square `s` in column `i` and row `j`, with
`s = i + j * nx`, owns the triangles `2 s` (at its lower left corner) and `2 s + 1` (at its upper right corner).

The boundary edges are listed side by side: bottom, right, top, left.
-/

namespace Magnetofluid

/-- The number of squares in the two directions. -/
structure Grid where
  nx : Nat
  ny : Nat
  nx_pos : 0 < nx
  ny_pos : 0 < ny

/-- Places in a rectangle of `a` columns and `b` rows are numbered below `a * b`. -/
theorem place_lt {a b i j : Nat} (hi : i < a) (hj : j < b) : i + j * a < a * b :=
  calc i + j * a < a + j * a := Nat.add_lt_add_right hi _
    _ = (j + 1) * a := by rw [Nat.succ_mul, Nat.add_comm]
    _ ≤ b * a := Nat.mul_le_mul_right a hj
    _ = a * b := Nat.mul_comm b a

namespace Grid

def nodesPerRow (g : Grid) : Nat := g.nx + 1

def nodes (g : Grid) : Nat := (g.nx + 1) * (g.ny + 1)

def triangles (g : Grid) : Nat := 2 * (g.nx * g.ny)

/-- The index that belongs to column `i` and row `j`, which need not lie in the grid. -/
def index (g : Grid) (i j : Int) : Int := i + j * g.nodesPerRow

/-- The numbers of the nodes in columns and rows that belong together. A single column or row belongs to all of the
others; otherwise there must be equally many. -/
def indices? (g : Grid) (is js : List Int) : Option (List Int) :=
  match is, js with
  | [i], js => some (js.map fun j => g.index i j)
  | is, [j] => some (is.map fun i => g.index i j)
  | is, js => if is.length = js.length then some (List.zipWith (fun i j => g.index i j) is js) else none

def node (g : Grid) (i : Fin (g.nx + 1)) (j : Fin (g.ny + 1)) : Fin g.nodes :=
  ⟨i + j * (g.nx + 1), place_lt i.isLt j.isLt⟩

def column (g : Grid) (k : Fin g.nodes) : Fin (g.nx + 1) :=
  ⟨k % (g.nx + 1), Nat.mod_lt _ (Nat.succ_pos _)⟩

def row (g : Grid) (k : Fin g.nodes) : Fin (g.ny + 1) :=
  ⟨k / (g.nx + 1), Nat.div_lt_of_lt_mul k.isLt⟩

/-- The triangle at the lower left corner of a square. -/
def lower (g : Grid) (i : Fin g.nx) (j : Fin g.ny) : Fin g.triangles :=
  ⟨2 * (i + j * g.nx), Nat.mul_lt_mul_of_pos_left (place_lt i.isLt j.isLt) (by decide)⟩

/-- The triangle at the upper right corner of a square. -/
def upper (g : Grid) (i : Fin g.nx) (j : Fin g.ny) : Fin g.triangles :=
  ⟨2 * (i + j * g.nx) + 1, by
    have h := place_lt i.isLt j.isLt
    unfold triangles; omega⟩

/-- The column of the square that owns a triangle. -/
def squareColumn (g : Grid) (t : Fin g.triangles) : Fin g.nx :=
  ⟨t / 2 % g.nx, Nat.mod_lt _ g.nx_pos⟩

/-- The row of the square that owns a triangle. -/
def squareRow (g : Grid) (t : Fin g.triangles) : Fin g.ny :=
  ⟨t / 2 / g.nx, Nat.div_lt_of_lt_mul (by have h := t.isLt; unfold triangles at h; omega)⟩

/-- The first corner of a triangle. -/
def first : Fin 3 := 0

def second : Fin 3 := 1

def third : Fin 3 := 2

/-- The nodes of a triangle: for a lower one the lower left, upper left and lower right corner of its square,
for an upper one the upper right, lower right and upper left corner. -/
def corner (g : Grid) (t : Fin g.triangles) (a : Fin 3) : Fin g.nodes :=
  let i := g.squareColumn t
  let j := g.squareRow t
  if t.val % 2 = 0 then
    match a with
    | 0 => g.node i.castSucc j.castSucc
    | 1 => g.node i.castSucc j.succ
    | 2 => g.node i.succ j.castSucc
  else
    match a with
    | 0 => g.node i.succ j.succ
    | 1 => g.node i.succ j.castSucc
    | 2 => g.node i.castSucc j.succ

/-- The triangles in order. -/
def cells (g : Grid) : List (Fin g.triangles) := List.finRange g.triangles

inductive Side
  | bottom
  | right
  | top
  | left
deriving DecidableEq, Repr

/-- The number of a side, from one. -/
def Side.number : Side → Nat
  | bottom => 1
  | right => 2
  | top => 3
  | left => 4

def Side.all : List Side := [bottom, right, top, left]

/-- A boundary edge: its end points, the triangle it belongs to, and its side. -/
structure BoundaryEdge (g : Grid) where
  start : Fin g.nodes
  stop : Fin g.nodes
  cell : Fin g.triangles
  side : Side

/-- The edges of one side, in the direction of the axis along it. -/
def edgesOf (g : Grid) : Side → List (BoundaryEdge g)
  | .bottom => (List.finRange g.nx).map fun i =>
      ⟨g.node i.castSucc 0, g.node i.succ 0, g.lower i ⟨0, g.ny_pos⟩, .bottom⟩
  | .right => (List.finRange g.ny).map fun j =>
      ⟨g.node (Fin.last g.nx) j.castSucc, g.node (Fin.last g.nx) j.succ,
        g.upper ⟨g.nx - 1, Nat.sub_one_lt_of_lt g.nx_pos⟩ j, .right⟩
  | .top => (List.finRange g.nx).map fun i =>
      ⟨g.node i.castSucc (Fin.last g.ny), g.node i.succ (Fin.last g.ny),
        g.upper i ⟨g.ny - 1, Nat.sub_one_lt_of_lt g.ny_pos⟩, .top⟩
  | .left => (List.finRange g.ny).map fun j =>
      ⟨g.node 0 j.castSucc, g.node 0 j.succ, g.lower ⟨0, g.nx_pos⟩ j, .left⟩

def boundary (g : Grid) : List (BoundaryEdge g) := Side.all.flatMap g.edgesOf

end Grid

end Magnetofluid
