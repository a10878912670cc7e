import Magnetofluid.Linear.Sparse
import Magnetofluid.Mesh.Geometry

/-!
# Bilinear forms

The matrices of the bilinear forms on continuous, piecewise linear functions. Every form is a sum of small
matrices, one for each triangle or boundary edge, scattered to the nodes.

* `mass`: `(u, v)`
* `diffusion`: `(c ∇u, ∇v)`
* `convection`: `(b · ∇u, v)` for a field `b` that is constant on each triangle
* `boundaryFlux`: `⟨∇u · n, v⟩` on the boundary
-/

namespace Magnetofluid.Form

variable {K : Type} [Scalar K]

/-- The local positions of a triangle. -/
def corners : List (Fin 3) := [Grid.first, Grid.second, Grid.third]

/-- The matrix that sums what each triangle contributes to each pair of its nodes. -/
@[specialize] def scatter (m : Mesh K) (contribution : Fin m.triangles → Fin 3 → Fin 3 → K) :
    Sparse K m.nodes m.nodes :=
  .ofTriplets m.nodes m.nodes <| m.cells.flatMap fun t =>
    let c := contribution t
    corners.flatMap fun a => corners.map fun b => (m.corner t a, m.corner t b, c a b)

def mass (m : Mesh K) : Sparse K m.nodes m.nodes :=
  scatter m fun t =>
    let area := (m.element t).area
    fun a b => area * (if a = b then 2.0 / 12.0 else 1.0 / 12.0)

/-- The stiffness matrix with a coefficient for each pair of corners of each triangle. -/
def diffusionOf (m : Mesh K) (c : Fin m.triangles → Fin 3 → Fin 3 → K) : Sparse K m.nodes m.nodes :=
  scatter m fun t =>
    let e := m.element t
    fun a b => c t a b * e.area * (e.gradient a).dot (e.gradient b)

def diffusion (m : Mesh K) (c : K) : Sparse K m.nodes m.nodes := diffusionOf m fun _ _ _ => c

/-- The convection matrix of a field that is constant on each triangle. -/
def convection (m : Mesh K) (velocity : Vector (Vec2 K) m.triangles) : Sparse K m.nodes m.nodes :=
  scatter m fun t =>
    let e := m.element t
    let third := e.area / 3.0
    let v := velocity.get t
    fun _ b => third * v.dot (e.gradient b)

/-- The convection matrix of the field `(∂u/∂y, -∂u/∂x)`. -/
def bracket (m : Mesh K) (u : Vec K m.nodes) : Sparse K m.nodes m.nodes :=
  convection m (m.perpGradient u)

/-- The matrix of the normal derivative on the boundary. -/
def boundaryFlux (m : Mesh K) : Sparse K m.nodes m.nodes :=
  .ofTriplets m.nodes m.nodes <| m.boundary.flatMap fun edge =>
    let e := m.element edge.cell
    let half := 0.5 * m.edgeLength edge.side
    let n : Vec2 K := Mesh.outwardNormal edge.side
    [edge.start, edge.stop].flatMap fun i => corners.map fun b =>
      (i, m.corner edge.cell b, half * (e.gradient b).dot n)

end Magnetofluid.Form
