import Mathlib
import Magnetofluid.Proofs.Exact.Arithmetic
import Magnetofluid.Proofs.Mesh.Edges
import Magnetofluid.Proofs.Mesh.Geometry

/-!
# The outline of a mesh

A grid laid over a rectangle of positive size: where its nodes lie, and how long the boundary edges are, which way they
face and which side of the rectangle they are on.

* `Mesh.point_sub_point`: what is between two nodes, in columns and rows.
* `Mesh.onWall_iff`: the nodes of a side are those that lie on it.
* `Mesh.dot_outwardNormal_neg`: seen from a side, all other nodes lie against its outward normal.
* `Mesh.conforming_and_outlined`: a mesh conforms, and its boundary edges are described as they lie.
-/

namespace Magnetofluid

noncomputable def Vec2.norm (v : Vec2 ℝ) : ℝ := √(v.dot v)

namespace Mesh

open Grid

variable {m : Mesh ℝ}

theorem dx_pos (hx : 0 < m.lx) : 0 < m.dx := div_pos hx (Nat.cast_pos.2 m.nx_pos)

theorem dy_pos (hy : 0 < m.ly) : 0 < m.dy := div_pos hy (Nat.cast_pos.2 m.ny_pos)

theorem proper_of_pos (hx : 0 < m.lx) (hy : 0 < m.ly) : m.Proper := ⟨(dx_pos hx).ne', (dy_pos hy).ne'⟩

theorem nx_mul_dx (m : Mesh ℝ) : m.nx * m.dx = m.lx :=
  mul_div_cancel₀ _ (Nat.cast_ne_zero.2 m.nx_pos.ne')

theorem ny_mul_dy (m : Mesh ℝ) : m.ny * m.dy = m.ly :=
  mul_div_cancel₀ _ (Nat.cast_ne_zero.2 m.ny_pos.ne')

theorem point_sub_point (m : Mesh ℝ) (p q : Fin m.nodes) : m.point q - m.point p =
    ⟨((m.column q).val - (m.column p).val : ℝ) * m.dx, ((m.row q).val - (m.row p).val : ℝ) * m.dy⟩ := by
  show Vec2.mk _ _ = _
  congr 1
  · simp only [point]
    ring
  · simp only [point]
    ring

/-! ### Sides of the rectangle -/

/-- A point lies on the line of a side. -/
def OnWall (m : Mesh ℝ) : Side → Vec2 ℝ → Prop
  | .bottom, p => p.y = m.y0
  | .right, p => p.x = m.x0 + m.lx
  | .top, p => p.y = m.y0 + m.ly
  | .left, p => p.x = m.x0

theorem onWall_iff (hx : 0 < m.lx) (hy : 0 < m.ly) (s : Side) (k : Fin m.nodes) :
    m.OnWall s (m.point k) ↔ m.OnSide s k := by
  have hdx := (dx_pos hx).ne'
  have hdy := (dy_pos hy).ne'
  cases s with
  | bottom => simp [OnWall, OnSide, point, hdy]
  | right => simp [OnWall, OnSide, point, ← nx_mul_dx, hdx]
  | top => simp [OnWall, OnSide, point, ← ny_mul_dy, hdy]
  | left => simp [OnWall, OnSide, point, hdx]

noncomputable def tangent (m : Mesh ℝ) : Side → Vec2 ℝ
  | .bottom | .top => ⟨m.dx, 0⟩
  | .right | .left => ⟨0, m.dy⟩

theorem stop_sub_start {e : m.BoundaryEdge} (he : e.Along) : m.point e.stop - m.point e.start = m.tangent e.side := by
  obtain ⟨hstart, hstop, hstep, -, -⟩ := he
  rw [point_sub_point]
  cases hs : e.side <;> rw [hs] at hstart hstop <;> simp only [OnSide] at hstart hstop
  case bottom | top =>
    have hcolumn : (m.column e.stop).val = m.column e.start + 1 := by omega
    rw [hstart, hstop, hcolumn]
    simp [tangent]
  case right | left =>
    have hrow : (m.row e.stop).val = m.row e.start + 1 := by omega
    rw [hstart, hstop, hrow]
    simp [tangent]

theorem norm_tangent (hx : 0 < m.lx) (hy : 0 < m.ly) (s : Side) : (m.tangent s).norm = m.edgeLength s := by
  have hdx := Real.sqrt_mul_self (dx_pos hx).le
  have hdy := Real.sqrt_mul_self (dy_pos hy).le
  cases s <;> simpa [Vec2.norm, Vec2.dot, tangent, edgeLength]

theorem norm_outwardNormal (s : Side) : (outwardNormal s : Vec2 ℝ).norm = 1 := by
  cases s <;> simp [Vec2.norm, Vec2.dot, outwardNormal]

theorem dot_outwardNormal_tangent (m : Mesh ℝ) (s : Side) : Vec2.dot (outwardNormal s) (m.tangent s) = 0 := by
  cases s <;> simp [Vec2.dot, outwardNormal, tangent]

/-- Seen from a side, all nodes that are not on it lie inside. -/
theorem dot_outwardNormal_neg (hx : 0 < m.lx) (hy : 0 < m.ly) {s : Side} {p k : Fin m.nodes} (hp : m.OnSide s p)
    (hk : ¬ m.OnSide s k) : Vec2.dot (outwardNormal s) (m.point k - m.point p) < 0 := by
  have hcolumn := (m.column k).is_le
  have hrow := (m.row k).is_le
  rw [point_sub_point]
  cases s <;> simp only [OnSide] at hp hk <;> rw [hp]
  case bottom =>
    have hpos : (0 : ℝ) < (m.row k).val := Nat.cast_pos.2 (Nat.pos_of_ne_zero hk)
    simpa [Vec2.dot, outwardNormal] using mul_pos hpos (dy_pos hy)
  case right =>
    have hlt : ((m.column k).val : ℝ) < m.nx := Nat.cast_lt.2 (lt_of_le_of_ne hcolumn hk)
    simpa [Vec2.dot, outwardNormal] using mul_neg_of_neg_of_pos (sub_neg.2 hlt) (dx_pos hx)
  case top =>
    have hlt : ((m.row k).val : ℝ) < m.ny := Nat.cast_lt.2 (lt_of_le_of_ne hrow hk)
    simpa [Vec2.dot, outwardNormal] using mul_neg_of_neg_of_pos (sub_neg.2 hlt) (dy_pos hy)
  case left =>
    have hpos : (0 : ℝ) < (m.column k).val := Nat.cast_pos.2 (Nat.pos_of_ne_zero hk)
    simpa [Vec2.dot, outwardNormal] using mul_pos hpos (dx_pos hx)

/-! ### Outline -/

theorem number_eq_iff (hx : 0 < m.lx) (hy : 0 < m.ly) {e : m.BoundaryEdge} (he : e.Along) (s : Side) :
    e.side.number = s.number ↔ m.OnWall s (m.point e.start) ∧ m.OnWall s (m.point e.stop) := by
  have hnumber : e.side.number = s.number ↔ e.side = s := by
    cases e.side <;> cases s <;> decide
  rw [hnumber, onWall_iff hx hy, onWall_iff hx hy]
  constructor
  · rintro rfl
    exact ⟨he.start_onSide, he.stop_onSide⟩
  · rintro ⟨hstart, hstop⟩
    exact side_unique he.start_ne_stop he.start_onSide he.stop_onSide hstart hstop

/-- The nodes of a mesh lie in their columns and rows, and what is said of its boundary edges is true of the segments
between their end points. -/
structure Outlined (m : Mesh ℝ) : Prop where
  point_node : ∀ i j, m.point (m.node i j) = ⟨m.x0 + i.val * m.dx, m.y0 + j.val * m.dy⟩
  length : ∀ e ∈ m.boundary, m.edgeLength e.side = (m.point e.stop - m.point e.start).norm
  orthogonal : ∀ e ∈ m.boundary, Vec2.dot (outwardNormal e.side) (m.point e.stop - m.point e.start) = 0
  unit : ∀ e ∈ m.boundary, (outwardNormal e.side : Vec2 ℝ).norm = 1
  /-- The normal points away from the third corner of the triangle. -/
  outward : ∀ e ∈ m.boundary, ∀ k, m.HasCorner e.cell k → k ∉ e.ends →
    Vec2.dot (outwardNormal e.side) (m.point k - m.point e.start) < 0
  bottom : ∀ e ∈ m.boundary, e.side.number = 1 ↔ (m.point e.start).y = m.y0 ∧ (m.point e.stop).y = m.y0
  right : ∀ e ∈ m.boundary, e.side.number = 2 ↔
    (m.point e.start).x = m.x0 + m.lx ∧ (m.point e.stop).x = m.x0 + m.lx
  top : ∀ e ∈ m.boundary, e.side.number = 3 ↔
    (m.point e.start).y = m.y0 + m.ly ∧ (m.point e.stop).y = m.y0 + m.ly
  left : ∀ e ∈ m.boundary, e.side.number = 4 ↔ (m.point e.start).x = m.x0 ∧ (m.point e.stop).x = m.x0

theorem outlined (hx : 0 < m.lx) (hy : 0 < m.ly) : m.Outlined where
  point_node := m.point_node
  length e he := by rw [stop_sub_start (along_of_mem_boundary he), norm_tangent hx hy]
  orthogonal e he := by rw [stop_sub_start (along_of_mem_boundary he), dot_outwardNormal_tangent]
  unit e _ := norm_outwardNormal e.side
  outward e he k hk hends := by
    have halong := along_of_mem_boundary he
    exact dot_outwardNormal_neg hx hy halong.start_onSide (halong.not_onSide hk hends)
  bottom e he := number_eq_iff hx hy (along_of_mem_boundary he) .bottom
  right e he := number_eq_iff hx hy (along_of_mem_boundary he) .right
  top e he := number_eq_iff hx hy (along_of_mem_boundary he) .top
  left e he := number_eq_iff hx hy (along_of_mem_boundary he) .left

/-- **A mesh conforms, and its boundary is where its table says.** -/
theorem conforming_and_outlined (hx : 0 < m.lx) (hy : 0 < m.ly) : m.Conforming ∧ m.Outlined :=
  ⟨m.conforming, outlined hx hy⟩

/-- A mesh one square wide, in which every square is at two sides at least. -/
noncomputable def tower : Mesh ℝ where
  nx := 1
  ny := 2
  nx_pos := Nat.one_pos
  ny_pos := Nat.two_pos
  lx := 1
  ly := 1
  x0 := -1
  y0 := 1

theorem conforming_and_outlined_tower :
    0 < tower.lx ∧ 0 < tower.ly ∧ tower.Conforming ∧ tower.Outlined := by
  have hx : 0 < tower.lx := by simp [tower]
  have hy : 0 < tower.ly := by simp [tower]
  exact ⟨hx, hy, conforming_and_outlined hx hy⟩

end Mesh

end Magnetofluid
