import Magnetofluid.Failure
import Magnetofluid.Linear.Elimination
import Magnetofluid.Mesh.Geometry
import Magnetofluid.Value.Cast

/-!
# Meshes from settings

A mesh as a caller describes it: the number of squares in both directions, the size of the rectangle and its
lower left corner, as values of any kind.
-/

namespace Magnetofluid

variable {K : Type} [RealText K]

def Value.isBelowOne (v : Value K) : Except (Failure K) Bool := v.toNumber.map Number.isBelowOne

structure MeshDescription (K : Type) where
  nx : Value K
  ny : Value K
  lx : Value K := .int 1
  ly : Value K := .int 1
  x0 : Value K := .int 0
  y0 : Value K := .int 0

namespace MeshDescription

/-- A number of squares in one direction from which on no memory holds a number for each. -/
def countLimit : Nat := Nat.pow 2 60

/-- The mesh that is described. The counts are compared with one before they lose their fractions, and they divide the
size of the rectangle before nodes are numbered. -/
def toMesh (d : MeshDescription K) : Except (Failure K) (Mesh K) := do
  if ← d.nx.isBelowOne then throw .emptyGrid
  if ← d.ny.isBelowOne then throw .emptyGrid
  let nx := (← d.nx.toInteger).toNat
  let ny := (← d.ny.toInteger).toNat
  let lx ← d.lx.toReal
  let ly ← d.ly.toReal
  let x0 ← d.x0.toReal
  let y0 ← d.y0.toReal
  let _ : K ← Value.realOfInteger nx
  let _ : K ← Value.realOfInteger ny
  if countLimit ≤ max nx ny then throw .shape
  if h : 0 < nx ∧ 0 < ny then return { nx, ny, nx_pos := h.1, ny_pos := h.2, lx, ly, x0, y0 }
  else throw .emptyGrid

/-- The description that named settings give: `Nx` and `Ny` are needed, other names than those of the
description are refused. -/
def ofNamed? (named : List (String × Value K)) : Except (Failure K) (MeshDescription K) := do
  let value (name : String) : Option (Value K) := (named.find? (·.1 = name)).map (·.2)
  if named.any fun e => !(["Nx", "Ny", "Lx", "Ly", "x0", "y0"].contains e.1) then throw .wrongType
  match value "Nx", value "Ny" with
  | some nx, some ny =>
    return { nx, ny
             lx := (value "Lx").getD (.int 1)
             ly := (value "Ly").getD (.int 1)
             x0 := (value "x0").getD (.int 0)
             y0 := (value "y0").getD (.int 0) }
  | _, _ => throw .wrongType

end MeshDescription

namespace Mesh

def summary (m : Mesh K) : String :=
  "FiniteElementSpace(Nx=" ++ toString m.nx ++ ", Ny=" ++ toString m.ny ++
    ", Lx=" ++ RealText.write m.lx ++ ", Ly=" ++ RealText.write m.ly ++
    ", ndofs=" ++ toString m.nodes ++ ")"

/-- The nodes on the sides whose markers are not zero, in increasing order. There must be one marker for each
side: bottom, right, top, left. -/
def essentialNodes (m : Mesh K) (markers : List Int) : Except (Failure K) (List (Fin m.nodes)) :=
  match markers with
  | [bottom, right, top, left] =>
    let marked : Grid.Side → Bool
      | .bottom => bottom ≠ 0
      | .right => right ≠ 0
      | .top => top ≠ 0
      | .left => left ≠ 0
    .ok (Essential.ofList (nodesOn m.toGrid marked)).toList
  | _ => .error (.markerCount markers.length)

end Mesh

end Magnetofluid
