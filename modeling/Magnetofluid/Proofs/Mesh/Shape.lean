import Mathlib
import Magnetofluid.Proofs.Float.Special
import Magnetofluid.Proofs.Mesh.Outline

/-!
# The shape of a mesh

When the squares and triangles of a mesh have a positive size, in any number system.

* `Mesh.WellShaped`: positive widths, heights, areas and lengths, and no gradient divided by zero.
* `Mesh.wellShaped_iff`: in exact arithmetic a mesh is well shaped just if its lengths are positive.
* `Mesh.WellShaped.bounded`: a mesh of floats is well shaped only if its lengths are positive and finite and its corner
  is finite.
-/

namespace Magnetofluid.Mesh

open Grid

section General

variable {K : Type} [Scalar K] (m : Mesh K)

/-- What the gradients on a triangle are divided by. -/
def divisor (t : Fin m.triangles) : K :=
  let d1 := m.point (m.corner t second) - m.point (m.corner t first)
  let d2 := m.point (m.corner t third) - m.point (m.corner t first)
  d1.x * d2.y - d1.y * d2.x

/-- Squares, triangles and boundary edges of a mesh have a positive size, and no gradient is divided by zero. -/
structure WellShaped : Prop where
  dx : Scalar.lt 0 m.dx = true
  dy : Scalar.lt 0 m.dy = true
  area : ∀ t, Scalar.lt 0 (m.element t).area = true
  edge : ∀ e ∈ m.boundary, Scalar.lt 0 (m.edgeLength e.side) = true
  divisor : ∀ t, Scalar.eq (m.divisor t) 0 = false

/-- The triangle at the lower left corner of the mesh. -/
def lowerLeft : Fin m.triangles := m.lower ⟨0, m.nx_pos⟩ ⟨0, m.ny_pos⟩

/-- Two nodes of one column, and two of one row: their coordinates are subtracted from themselves. -/
theorem divisor_lowerLeft : ∃ a b : K, m.divisor m.lowerLeft =
    ((m.x0 + ((0 : ℕ) : K) * m.dx) - (m.x0 + ((0 : ℕ) : K) * m.dx)) *
      ((m.y0 + ((0 : ℕ) : K) * m.dy) - (m.y0 + ((0 : ℕ) : K) * m.dy)) - a * b := by
  unfold divisor lowerLeft
  rw [corner_lower_first, corner_lower_second, corner_lower_third, point_node, point_node, point_node]
  exact ⟨_, _, rfl⟩

end General

/-! ### Exact arithmetic -/

section Exact

variable (m : Mesh ℝ)

theorem divisor_eq (t : Fin m.triangles) : m.divisor t = -(m.dx * m.dy) := by
  unfold divisor
  simp only [point_second_sub_first, point_third_sub_first]
  exact m.determinant t

theorem wellShaped_iff : m.WellShaped ↔ 0 < m.lx ∧ 0 < m.ly := by
  constructor
  · intro h
    have hdx : 0 < m.dx := of_decide_eq_true h.dx
    have hdy : 0 < m.dy := of_decide_eq_true h.dy
    rw [← nx_mul_dx, ← ny_mul_dy]
    exact ⟨mul_pos (Nat.cast_pos.2 m.nx_pos) hdx, mul_pos (Nat.cast_pos.2 m.ny_pos) hdy⟩
  · rintro ⟨hx, hy⟩
    have hdx := dx_pos hx
    have hdy := dy_pos hy
    refine ⟨decide_eq_true hdx, decide_eq_true hdy, fun t => ?_, fun e _ => ?_, fun t => ?_⟩
    · exact decide_eq_true (element_area_pos (proper_of_pos hx hy) t)
    · cases e.side <;> exact decide_eq_true ‹_›
    · rw [divisor_eq]
      exact decide_eq_false (neg_ne_zero.2 (mul_pos hdx hdy).ne')

end Exact

/-! ### Floats -/

section Floats

variable {m : Mesh Float}

/-- The lengths of a mesh are positive, and they and the corner are finite. -/
structure Bounded (m : Mesh Float) : Prop where
  lx_pos : 0.0 < m.lx
  ly_pos : 0.0 < m.ly
  lx_finite : m.lx.isFinite
  ly_finite : m.ly.isFinite
  x0_finite : m.x0.isFinite
  y0_finite : m.y0.isFinite

/-- A coordinate that is a number when it is subtracted from itself. -/
theorem finite_of_sub_self {a l : Float} {n : ℕ}
    (h : ¬ ((a + Float.ofNat 0 * (l / Float.ofNat n)) - (a + Float.ofNat 0 * (l / Float.ofNat n))).isNaN) :
    l.isFinite ∧ a.isFinite := by
  obtain ⟨ha, hstep⟩ := Float.isFinite_of_add (Float.isFinite_of_sub_self h)
  exact ⟨Float.isFinite_of_div (Float.isFinite_of_zero_mul hstep), ha⟩

theorem WellShaped.bounded (h : m.WellShaped) : m.Bounded := by
  have hdx : 0.0 < m.lx / Float.ofNat m.nx := of_decide_eq_true h.dx
  have hdy : 0.0 < m.ly / Float.ofNat m.ny := of_decide_eq_true h.dy
  have harea : 0.0 < 0.5 * (m.divisor m.lowerLeft).abs := of_decide_eq_true (h.area m.lowerLeft)
  have hdivisor : ¬ (m.divisor m.lowerLeft).isNaN := by
    intro hnan
    have harea_nan := Float.isNaN_mul (a := 0.5) (.inr (Float.isNaN_abs hnan))
    rw [(Float.isNaN_eq_false_of_le (Float.le_of_lt harea)).2] at harea_nan
    exact Bool.false_ne_true harea_nan
  obtain ⟨a, b, heq⟩ := m.divisor_lowerLeft
  rw [heq] at hdivisor
  have hproduct := fun hnan => hdivisor (Float.isNaN_sub (.inl hnan))
  obtain ⟨hlx, hx0⟩ := finite_of_sub_self fun hnan => hproduct (Float.isNaN_mul (.inl hnan))
  obtain ⟨hly, hy0⟩ := finite_of_sub_self fun hnan => hproduct (Float.isNaN_mul (.inr hnan))
  exact ⟨Float.pos_of_div_natCast_pos hdx, Float.pos_of_div_natCast_pos hdy, hlx, hly, hx0, hy0⟩

end Floats

end Magnetofluid.Mesh
