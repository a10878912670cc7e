import Magnetofluid.Failure
import Magnetofluid.Form.Bilinear
import Magnetofluid.Tensor

/-!
# Functions of position and load vectors

What a caller may hand in where a function of position is expected, its nodal interpolant, and the load vector
`(f, v)` by the three-point rule, which is exact for polynomials of degree two. Tables of values may have any shape that
can be stretched to the one asked for.
-/

namespace Magnetofluid

/-- What stands for a function of position: a function, a table that is the function's value whatever the
positions, or something that is no function. -/
inductive Coefficient (K : Type)
  | function (f : K → K → K)
  | table (values : AnyTensor K)
  | other

namespace Mesh

variable {K : Type} [Scalar K]

/-- A field that is constant on each triangle, from a table of two components for each triangle. -/
def elementField? (m : Mesh K) (table : AnyTensor K) : Except (Failure K) (Vector (Vec2 K) m.triangles) := do
  unless table.shape.length = 2 do throw .shape
  let some rows := table.stretch? [m.triangles, 2] | throw .shape
  return Vector.map (fun (row : Vec K 2) => ⟨row.get ⟨0, by decide⟩, row.get ⟨1, by decide⟩⟩) rows

/-- The nodal interpolant. -/
def project (m : Mesh K) : Coefficient K → Except (Failure K) (Vec K m.nodes)
  | .other => .error (.notAFunction .coefficient)
  | .function f => .ok (.ofFn fun k => let p := m.point k; f p.x p.y)
  | .table values => (values.stretch? [m.nodes]).elim (.error .shape) .ok

end Mesh

namespace Form

variable {K : Type} [Scalar K]

/-- The value of basis function `b` at quadrature point `q` of a triangle. -/
def barycentric (q b : Fin 3) : K := if q = b then 2.0 / 3.0 else 1.0 / 6.0

/-- The weight of a quadrature point as a fraction of the area. -/
def weight : K := 1.0 / 3.0

def quadraturePoint (m : Mesh K) (t : Fin m.triangles) (q : Fin 3) : Vec2 K :=
  let p := fun b => m.point (m.corner t b)
  let mean := fun (c : Vec2 K → K) =>
    barycentric q Grid.first * c (p Grid.first) + barycentric q Grid.second * c (p Grid.second) +
      barycentric q Grid.third * c (p Grid.third)
  ⟨mean (·.x), mean (·.y)⟩

/-- The load vector of the values at the quadrature points. -/
def loadOf (m : Mesh K) (values : Fin m.triangles → Fin 3 → K) : Vec K m.nodes :=
  m.cells.foldl (fun b t =>
    let area := (m.element t).area
    let w (q : Fin 3) : K := values t q * weight
    let w0 := w Grid.first
    let w1 := w Grid.second
    let w2 := w Grid.third
    let value (a : Fin 3) : K :=
      area * (w0 * barycentric Grid.first a + w1 * barycentric Grid.second a + w2 * barycentric Grid.third a)
    let add (b : Vec K m.nodes) (a : Fin 3) : Vec K m.nodes :=
      Vec.put b (m.corner t a) (b.get (m.corner t a) + value a)
    add (add (add b Grid.first) Grid.second) Grid.third) (Vec.zeros m.nodes)

def load (m : Mesh K) : Coefficient K → Except (Failure K) (Vec K m.nodes)
  | .other => .error (.notAFunction .source)
  | .function f => .ok <| loadOf m fun t q => let p := quadraturePoint m t q; f p.x p.y
  | .table values => do
    let some rows := values.stretch? [m.triangles, 3] | throw .shape
    let rows : Vector (Vec K 3) m.triangles := rows
    return loadOf m fun t q => (rows.get t).get q

/-- The stiffness matrix with a table of coefficients for each pair of corners of each triangle. -/
def diffusionBy (m : Mesh K) (table : AnyTensor K) : Except (Failure K) (Sparse K m.nodes m.nodes) := do
  let some blocks := (table.dropOnes 3).stretch? [m.triangles, 3, 3] | throw .shape
  let blocks : Vector (Vector (Vec K 3) 3) m.triangles := blocks
  return diffusionOf m fun t a b => ((blocks.get t).get a).get b

end Form

end Magnetofluid
