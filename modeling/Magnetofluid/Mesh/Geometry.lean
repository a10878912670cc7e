import Magnetofluid.Linear.Vector
import Magnetofluid.Mesh.Grid

/-!
# Meshes in the plane

A grid laid over the rectangle `[x0, x0 + lx] × [y0, y0 + ly]`, with the areas of its triangles, the constant
gradients of the nodal basis functions, and the lengths and outward normals of the boundary edges.
-/

namespace Magnetofluid

structure Vec2 (K : Type) where
  x : K
  y : K
deriving Repr

namespace Vec2

variable {K : Type} [Scalar K]

instance : Add (Vec2 K) := ⟨fun a b => ⟨a.x + b.x, a.y + b.y⟩⟩
instance : Sub (Vec2 K) := ⟨fun a b => ⟨a.x - b.x, a.y - b.y⟩⟩
instance : Neg (Vec2 K) := ⟨fun a => ⟨-a.x, -a.y⟩⟩

def dot (a b : Vec2 K) : K := a.x * b.x + a.y * b.y

end Vec2

/-- A grid with the size and the lower left corner of the rectangle it covers. -/
structure Mesh (K : Type) extends Grid where
  lx : K
  ly : K
  x0 : K
  y0 : K

/-- The area of a triangle and the gradients of its three basis functions. -/
structure Element (K : Type) where
  area : K
  gradient0 : Vec2 K
  gradient1 : Vec2 K
  gradient2 : Vec2 K

@[inline] def Element.gradient {K : Type} (e : Element K) : Fin 3 → Vec2 K
  | 0 => e.gradient0
  | 1 => e.gradient1
  | 2 => e.gradient2

namespace Mesh

variable {K : Type} [Scalar K]

def dx (m : Mesh K) : K := m.lx / (m.nx : K)

def dy (m : Mesh K) : K := m.ly / (m.ny : K)

def point (m : Mesh K) (k : Fin m.nodes) : Vec2 K where
  x := m.x0 + ((m.column k : Nat) : K) * m.dx
  y := m.y0 + ((m.row k : Nat) : K) * m.dy

def element (m : Mesh K) (t : Fin m.triangles) : Element K :=
  let p := m.point (m.corner t Grid.first)
  let d1 := m.point (m.corner t Grid.second) - p
  let d2 := m.point (m.corner t Grid.third) - p
  let det := d1.x * d2.y - d1.y * d2.x
  let g1 : Vec2 K := ⟨d2.y / det, -d2.x / det⟩
  let g2 : Vec2 K := ⟨-d1.y / det, d1.x / det⟩
  ⟨0.5 * Scalar.abs det, -(g1 + g2), g1, g2⟩

/-- The length of the edges of a side. -/
def edgeLength (m : Mesh K) : Grid.Side → K
  | .bottom | .top => m.dx
  | .right | .left => m.dy

def outwardNormal (s : Grid.Side) : Vec2 K :=
  match s with
  | .bottom => ⟨0, -1⟩
  | .right => ⟨1, 0⟩
  | .top => ⟨0, 1⟩
  | .left => ⟨-1, 0⟩

/-- The constant gradient of a nodal field on a triangle. -/
def gradientOn (m : Mesh K) (u : Vec K m.nodes) (t : Fin m.triangles) : Vec2 K :=
  let e := m.element t
  let u0 := u.get (m.corner t Grid.first)
  let u1 := u.get (m.corner t Grid.second)
  let u2 := u.get (m.corner t Grid.third)
  ⟨0 + u0 * e.gradient0.x + u1 * e.gradient1.x + u2 * e.gradient2.x,
   0 + u0 * e.gradient0.y + u1 * e.gradient1.y + u2 * e.gradient2.y⟩

/-- The gradient of a nodal field on all triangles. -/
def gradient (m : Mesh K) (u : Vec K m.nodes) : Vector (Vec2 K) m.triangles :=
  .ofFn (m.gradientOn u)

/-- The field `(∂u/∂y, -∂u/∂x)` of a potential on all triangles. -/
def perpGradient (m : Mesh K) (u : Vec K m.nodes) : Vector (Vec2 K) m.triangles :=
  .ofFn fun t => let g := m.gradientOn u t; ⟨g.y, -g.x⟩

def nodesOn (g : Grid) (marked : Grid.Side → Bool) : List (Fin g.nodes) :=
  (g.boundary.filter fun e => marked e.side).flatMap fun e => [e.start, e.stop]

end Mesh

end Magnetofluid
