import Mathlib
import Magnetofluid.Linear.Elimination
import Magnetofluid.Mesh.Geometry
import Magnetofluid.Proofs.Linear.Vector
import Magnetofluid.Proofs.Mesh.Grid

/-!
# Triangles of a mesh over the reals

All triangles of a mesh are right-angled with legs along the axes, the upper ones turned by half a turn against the
lower ones.

* `Mesh.element_area`: all triangles have the same area.
* `Mesh.gradientOn_eq`: the gradient of a field is made of its differences along the legs, `Mesh.slope`.
-/

namespace Magnetofluid

theorem Vec2.dot_comm (v w : Vec2 ℝ) : v.dot w = w.dot v := by
  simp only [dot]
  ring

namespace Mesh

open Grid

theorem point_node {K : Type} [Scalar K] (m : Mesh K) (i : Fin (m.nx + 1)) (j : Fin (m.ny + 1)) :
    m.point (m.node i j) = ⟨m.x0 + (i.val : K) * m.dx, m.y0 + (j.val : K) * m.dy⟩ := by
  unfold point
  rw [column_node, row_node]

/-- A mesh whose squares have an extent in both directions. -/
def Proper (m : Mesh ℝ) : Prop := m.dx ≠ 0 ∧ m.dy ≠ 0

variable (m : Mesh ℝ)

/-- The direction of the legs of a triangle, along the axes or against them. -/
def direction (t : Fin m.triangles) : ℝ := if t.val % 2 = 0 then 1 else -1

theorem direction_lower (i : Fin m.nx) (j : Fin m.ny) : m.direction (m.lower i j) = 1 :=
  if_pos (m.lower_even i j)

theorem direction_upper (i : Fin m.nx) (j : Fin m.ny) : m.direction (m.upper i j) = -1 :=
  if_neg (by rw [m.upper_odd i j]; decide)

theorem direction_mul_self (t : Fin m.triangles) : m.direction t * m.direction t = 1 := by
  unfold direction
  split_ifs <;> norm_num

/-- The first leg of a triangle is upright. -/
theorem point_second_sub_first (t : Fin m.triangles) :
    m.point (m.corner t second) - m.point (m.corner t first) = ⟨0, m.direction t * m.dy⟩ := by
  obtain ⟨i, j, rfl | rfl⟩ := m.eq_lower_or_upper t
  · rw [corner_lower_first, corner_lower_second, direction_lower, point_node, point_node]
    show Vec2.mk _ _ = _
    congr 1
    · simp
    · simp; ring
  · rw [corner_upper_first, corner_upper_second, direction_upper, point_node, point_node]
    show Vec2.mk _ _ = _
    congr 1
    · simp
    · simp; ring

/-- The second leg of a triangle is level. -/
theorem point_third_sub_first (t : Fin m.triangles) :
    m.point (m.corner t third) - m.point (m.corner t first) = ⟨m.direction t * m.dx, 0⟩ := by
  obtain ⟨i, j, rfl | rfl⟩ := m.eq_lower_or_upper t
  · rw [corner_lower_first, corner_lower_third, direction_lower, point_node, point_node]
    show Vec2.mk _ _ = _
    congr 1
    · simp; ring
    · simp
  · rw [corner_upper_first, corner_upper_third, direction_upper, point_node, point_node]
    show Vec2.mk _ _ = _
    congr 1
    · simp; ring
    · simp

/-- Twice the area of a triangle, with its sign. -/
theorem determinant (t : Fin m.triangles) :
    0 * 0 - m.direction t * m.dy * (m.direction t * m.dx) = -(m.dx * m.dy) := by
  linear_combination -(m.dx * m.dy) * m.direction_mul_self t

theorem element_area (t : Fin m.triangles) : (m.element t).area = |m.dx * m.dy| / 2 := by
  unfold element
  simp only [point_second_sub_first, point_third_sub_first, determinant]
  rw [Scalar.abs_real, abs_neg]
  ring

noncomputable def slope (u : Fin m.nodes → ℝ) (t : Fin m.triangles) : Vec2 ℝ :=
  ⟨m.direction t * (u (m.corner t third) - u (m.corner t first)) / m.dx,
    m.direction t * (u (m.corner t second) - u (m.corner t first)) / m.dy⟩

variable {m}

theorem element_area_pos (h : m.Proper) (t : Fin m.triangles) : 0 < (m.element t).area := by
  rw [element_area]
  exact half_pos (abs_pos.2 (mul_ne_zero h.1 h.2))

theorem element_gradient_second (h : m.Proper) (t : Fin m.triangles) :
    (m.element t).gradient1 = ⟨0, m.direction t / m.dy⟩ := by
  obtain ⟨hx, hy⟩ := h
  unfold element
  simp only [point_second_sub_first, point_third_sub_first, determinant]
  congr 1
  · rw [zero_div]
  · field_simp

theorem element_gradient_third (h : m.Proper) (t : Fin m.triangles) :
    (m.element t).gradient2 = ⟨m.direction t / m.dx, 0⟩ := by
  obtain ⟨hx, hy⟩ := h
  unfold element
  simp only [point_second_sub_first, point_third_sub_first, determinant]
  congr 1
  · field_simp
  · rw [zero_div]

/-- The gradients of the three basis functions have the sum zero. -/
theorem element_gradient_first (t : Fin m.triangles) :
    (m.element t).gradient0 = -((m.element t).gradient1 + (m.element t).gradient2) := rfl

theorem gradientOn_eq (h : m.Proper) (u : Vec ℝ m.nodes) (t : Fin m.triangles) :
    m.gradientOn u t = m.slope u.values t := by
  unfold gradientOn slope
  simp only [element_gradient_first, element_gradient_second h, element_gradient_third h]
  show Vec2.mk (0 + u.values _ * -(0 + m.direction t / m.dx) + u.values _ * 0 + u.values _ * (m.direction t / m.dx))
    (0 + u.values _ * -(m.direction t / m.dy + 0) + u.values _ * (m.direction t / m.dy) + u.values _ * 0) = _
  congr 1
  · ring
  · ring

def unitSquare : Mesh ℝ where
  nx := 2
  ny := 2
  nx_pos := Nat.two_pos
  ny_pos := Nat.two_pos
  lx := 1
  ly := 1
  x0 := 0
  y0 := 0

theorem unitSquare_proper : unitSquare.Proper := by
  simp [Proper, dx, dy, unitSquare]

end Mesh

/-! ### Walls -/

namespace Essential

variable {m : Mesh ℝ}

/-- The essential nodes are those of the boundary. -/
def IsBoundary (ess : Essential m.nodes) : Prop := ∀ k, k ∈ ess ↔ m.OnBoundary k

def boundary (m : Mesh ℝ) : Essential m.nodes := ⟨.ofFn fun k => decide (m.OnBoundary k)⟩

theorem boundary_isBoundary (m : Mesh ℝ) : (boundary m).IsBoundary := by
  intro k
  show (boundary m).marked.get k = true ↔ _
  simp [boundary]

theorem boundary_nonempty (m : Mesh ℝ) : ∃ k, k ∈ boundary m :=
  ⟨m.node 0 0, (boundary_isBoundary m _).2 (m.node_zero_row_onBoundary 0)⟩

end Essential

end Magnetofluid
