import Mathlib
import Magnetofluid.Form.Bilinear
import Magnetofluid.Proofs.Linear.Positive
import Magnetofluid.Proofs.Mesh.Geometry

/-!
# Bilinear forms over the reals

The matrices of the forms as sums over triangles, and what follows for their values at any two fields.

* `Form.mass_form`, `Form.diffusion_form`: the form of the mass matrix in the values at the corners, that of the
  stiffness matrix in the gradients.  Both are symmetric.
* `Form.mass_definite`, `Form.stiffness_definite`: the forms vanish at no field but zero, that of the stiffness matrix
  among the fields that are zero at some node.
* `Form.mass_positive`, `Form.stiffness_positive`: there they are positive.
* `Form.convection_form`: the form of convection in the values at the corners and the gradients.
* `Form.boundaryFlux_form`, `Form.boundaryFlux_slope`: the boundary flux is not seen by fields that vanish on the
  boundary; it has the gradients on the triangles at the boundary.
-/

namespace Magnetofluid.Form

open Matrix Grid

variable {m : Mesh ℝ}

/-! ### Sums over triangles -/

theorem sum_map_flatMap {α β : Type} (l : List α) (f : α → List β) (v : β → ℝ) :
    ((l.flatMap f).map v).sum = (l.map fun a => ((f a).map v).sum).sum := by
  induction l with
  | nil => rfl
  | cons a l ih => rw [List.flatMap_cons, List.map_append, List.sum_append, ih, List.map_cons, List.sum_cons]

theorem sum_map_corners (v : Fin 3 → ℝ) : (corners.map v).sum = ∑ a, v a := by
  rw [Fin.sum_univ_three]
  simp only [corners, List.map_cons, List.map_nil, List.sum_cons, List.sum_nil, first, second, third]
  ring

/-- The form of a matrix of contributions is the sum of what the triangles contribute to it. -/
theorem scatter_form (c : Fin m.triangles → Fin 3 → Fin 3 → ℝ) (x y : Fin m.nodes → ℝ) :
    x ⬝ᵥ (scatter m c).toMatrix *ᵥ y =
      ∑ t, ∑ a, ∑ b, x (m.corner t a) * c t a b * y (m.corner t b) := by
  unfold scatter
  rw [Sparse.dotProduct_ofTriplets_mulVec, sum_map_flatMap]
  simp only [sum_map_flatMap, List.map_map, Function.comp_def, sum_map_corners]
  unfold cells
  rw [← List.ofFn_eq_map, List.sum_ofFn]

/-! ### Mass -/

def cornerSum (x : Fin m.nodes → ℝ) (t : Fin m.triangles) : ℝ := ∑ a, x (m.corner t a)

theorem mass_form (x y : Fin m.nodes → ℝ) :
    x ⬝ᵥ (mass m).toMatrix *ᵥ y = ∑ t, (m.element t).area / 12 *
      (cornerSum x t * cornerSum y t + ∑ a, x (m.corner t a) * y (m.corner t a)) := by
  unfold mass
  rw [scatter_form]
  refine Finset.sum_congr rfl fun t _ => ?_
  have h : (2.0 / 12.0 : ℝ) = 2 / 12 ∧ (1.0 / 12.0 : ℝ) = 1 / 12 := by norm_num
  simp only [cornerSum, Fin.sum_univ_three, h.1, h.2, Fin.reduceEq, if_true, if_false]
  ring

theorem mass_symm (x y : Fin m.nodes → ℝ) : x ⬝ᵥ (mass m).toMatrix *ᵥ y = y ⬝ᵥ (mass m).toMatrix *ᵥ x := by
  rw [mass_form, mass_form]
  simp only [mul_comm (x _), mul_comm (cornerSum x _)]

/-- What a triangle contributes to the form of the mass matrix at one field, but for the area. -/
theorem corner_squares_nonneg (x : Fin m.nodes → ℝ) (t : Fin m.triangles) :
    0 ≤ cornerSum x t * cornerSum x t + ∑ a, x (m.corner t a) * x (m.corner t a) :=
  add_nonneg (mul_self_nonneg _) (Finset.sum_nonneg fun _ _ => mul_self_nonneg _)

theorem mass_nonneg (h : m.Proper) (x : Fin m.nodes → ℝ) : 0 ≤ x ⬝ᵥ (mass m).toMatrix *ᵥ x := by
  rw [mass_form]
  refine Finset.sum_nonneg fun t _ => mul_nonneg (div_nonneg (m.element_area_pos h t).le ?_) (corner_squares_nonneg x t)
  norm_num

theorem mass_definite (h : m.Proper) (ess : Essential m.nodes) : ess.Definite (mass m).toMatrix := by
  intro z _ hz
  rw [mass_form] at hz
  have hpos : ∀ t, 0 < (m.element t).area / 12 := fun t => div_pos (m.element_area_pos h t) (by norm_num)
  have hterm :=
    (Finset.sum_eq_zero_iff_of_nonneg fun t _ => mul_nonneg (hpos t).le (corner_squares_nonneg z t)).1 hz
  funext k
  obtain ⟨t, a, rfl⟩ := m.exists_corner k
  have hsum : cornerSum z t * cornerSum z t + ∑ a, z (m.corner t a) * z (m.corner t a) = 0 :=
    (mul_eq_zero.1 (hterm t (Finset.mem_univ t))).resolve_left (hpos t).ne'
  have hsquares : ∑ a, z (m.corner t a) * z (m.corner t a) = 0 := by
    have h1 : 0 ≤ ∑ a, z (m.corner t a) * z (m.corner t a) := Finset.sum_nonneg fun a _ => mul_self_nonneg _
    linarith [mul_self_nonneg (cornerSum z t)]
  have hsquare := (Finset.sum_eq_zero_iff_of_nonneg fun a _ => mul_self_nonneg (z (m.corner t a))).1 hsquares
  exact mul_self_eq_zero.1 (hsquare a (Finset.mem_univ a))

theorem mass_positive (h : m.Proper) (ess : Essential m.nodes) : ess.Positive (mass m).toMatrix :=
  (mass_definite h ess).positive (mass_nonneg h)

theorem mass_isSymm (m : Mesh ℝ) : (mass m).toMatrix.IsSymm := Sparse.isSymm_of_form mass_symm

/-! ### Stiffness -/

/-- The sum of the gradients of the basis functions of a triangle, each times the value at its corner. -/
theorem sum_gradient (h : m.Proper) (x : Fin m.nodes → ℝ) (t : Fin m.triangles) (v : Vec2 ℝ) :
    ∑ a, x (m.corner t a) * v.dot ((m.element t).gradient a) = v.dot (m.slope x t) := by
  have hslope := m.gradientOn_eq h (.ofFn x) t
  rw [Vec.values_ofFn] at hslope
  rw [← hslope, Fin.sum_univ_three]
  simp only [Vec2.dot, Element.gradient, Mesh.gradientOn, Vec.get_eq_getElem, Vector.getElem_ofFn, first, second, third]
  ring

theorem convection_form (h : m.Proper) (velocity : Vector (Vec2 ℝ) m.triangles) (x y : Fin m.nodes → ℝ) :
    x ⬝ᵥ (convection m velocity).toMatrix *ᵥ y =
      ∑ t, (m.element t).area / 3 * cornerSum x t * (velocity.get t).dot (m.slope y t) := by
  unfold convection
  rw [scatter_form]
  refine Finset.sum_congr rfl fun t _ => ?_
  have hthree : (3.0 : ℝ) = 3 := by norm_num
  rw [← sum_gradient h, cornerSum, mul_assoc, Finset.sum_mul_sum, Finset.mul_sum]
  refine Finset.sum_congr rfl fun a _ => ?_
  rw [Finset.mul_sum]
  refine Finset.sum_congr rfl fun b _ => ?_
  rw [hthree]
  ring

theorem diffusion_form (h : m.Proper) (c : ℝ) (x y : Fin m.nodes → ℝ) :
    x ⬝ᵥ (diffusion m c).toMatrix *ᵥ y =
      ∑ t, c * (m.element t).area * (m.slope x t).dot (m.slope y t) := by
  unfold diffusion diffusionOf
  rw [scatter_form]
  refine Finset.sum_congr rfl fun t _ => ?_
  calc ∑ a, ∑ b, x (m.corner t a) * (c * (m.element t).area * ((m.element t).gradient a).dot
          ((m.element t).gradient b)) * y (m.corner t b)
      = c * (m.element t).area * ∑ a, x (m.corner t a) * ∑ b, y (m.corner t b) *
          ((m.element t).gradient a).dot ((m.element t).gradient b) := by
        simp only [Finset.mul_sum]
        refine Finset.sum_congr rfl fun a _ => Finset.sum_congr rfl fun b _ => ?_
        ring
    _ = c * (m.element t).area * ∑ a, x (m.corner t a) * (m.slope y t).dot ((m.element t).gradient a) := by
        simp only [sum_gradient h, Vec2.dot_comm (m.slope y t)]
    _ = _ := by rw [sum_gradient h, Vec2.dot_comm]

/-- Diffusion is stiffness times its coefficient. -/
theorem diffusion_mulVec (h : m.Proper) (c : ℝ) (y : Fin m.nodes → ℝ) :
    (diffusion m c).toMatrix *ᵥ y = c • (diffusion m 1).toMatrix *ᵥ y := by
  refine dotProduct_eq _ _ fun x => ?_
  rw [dotProduct_comm, dotProduct_comm (c • _), dotProduct_smul, diffusion_form h, diffusion_form h, smul_eq_mul,
    Finset.mul_sum]
  refine Finset.sum_congr rfl fun t _ => ?_
  ring

theorem stiffness_symm (h : m.Proper) (x y : Fin m.nodes → ℝ) :
    x ⬝ᵥ (diffusion m 1).toMatrix *ᵥ y = y ⬝ᵥ (diffusion m 1).toMatrix *ᵥ x := by
  rw [diffusion_form h, diffusion_form h]
  refine Finset.sum_congr rfl fun t _ => ?_
  rw [Vec2.dot_comm]

theorem stiffness_nonneg (h : m.Proper) (x : Fin m.nodes → ℝ) : 0 ≤ x ⬝ᵥ (diffusion m 1).toMatrix *ᵥ x := by
  rw [diffusion_form h]
  refine Finset.sum_nonneg fun t _ => ?_
  rw [one_mul]
  exact mul_nonneg (m.element_area_pos h t).le (add_nonneg (mul_self_nonneg _) (mul_self_nonneg _))

/-- A field without gradients takes one value only. -/
theorem eq_of_stiffness_eq_zero (h : m.Proper) {z : Fin m.nodes → ℝ}
    (hz : z ⬝ᵥ (diffusion m 1).toMatrix *ᵥ z = 0) (k l : Fin m.nodes) : z k = z l := by
  rw [diffusion_form h] at hz
  have hnonneg : ∀ t, 0 ≤ (m.slope z t).dot (m.slope z t) :=
    fun t => add_nonneg (mul_self_nonneg _) (mul_self_nonneg _)
  have hpos : ∀ t, 0 < 1 * (m.element t).area := fun t => by rw [one_mul]; exact m.element_area_pos h t
  have hterm := (Finset.sum_eq_zero_iff_of_nonneg fun t _ => mul_nonneg (hpos t).le (hnonneg t)).1 hz
  refine m.eq_of_corners (fun t => ?_) k l
  have hdot : (m.slope z t).dot (m.slope z t) = 0 :=
    (mul_eq_zero.1 (hterm t (Finset.mem_univ t))).resolve_left (hpos t).ne'
  have hslope : (m.slope z t).x = 0 ∧ (m.slope z t).y = 0 := mul_self_add_mul_self_eq_zero.1 hdot
  have hdirection : m.direction t ≠ 0 := fun hd => by simpa [hd] using m.direction_mul_self t
  simp only [Mesh.slope, div_eq_zero_iff, mul_eq_zero, hdirection, h.1, h.2, or_false, false_or] at hslope
  exact ⟨sub_eq_zero.1 hslope.2, sub_eq_zero.1 hslope.1⟩

theorem stiffness_definite (h : m.Proper) {ess : Essential m.nodes} (hess : ∃ k, k ∈ ess) :
    ess.Definite (diffusion m 1).toMatrix := by
  intro z hzero hz
  obtain ⟨k, hk⟩ := hess
  funext l
  rw [eq_of_stiffness_eq_zero h hz l k, hzero k hk]
  rfl

theorem stiffness_positive (h : m.Proper) {ess : Essential m.nodes} (hess : ∃ k, k ∈ ess) :
    ess.Positive (diffusion m 1).toMatrix :=
  (stiffness_definite h hess).positive (stiffness_nonneg h)

theorem stiffness_isSymm (h : m.Proper) : (diffusion m 1).toMatrix.IsSymm := Sparse.isSymm_of_form (stiffness_symm h)

/-- Diffusion takes constants to zero. -/
theorem diffusion_const (h : m.Proper) (c : ℝ) (x : Fin m.nodes → ℝ) (a : ℝ) :
    x ⬝ᵥ (diffusion m c).toMatrix *ᵥ (fun _ => a) = 0 := by
  rw [diffusion_form h]
  refine Finset.sum_eq_zero fun t _ => ?_
  simp [Mesh.slope, Vec2.dot]

/-! ### Boundary flux -/

theorem boundary_onBoundary (g : Grid) {e : g.BoundaryEdge} (he : e ∈ g.boundary) :
    g.OnBoundary e.start ∧ g.OnBoundary e.stop := by
  unfold boundary at he
  obtain ⟨s, -, he⟩ := List.mem_flatMap.1 he
  cases s with
  | bottom =>
    obtain ⟨i, -, rfl⟩ := List.mem_map.1 he
    exact ⟨g.node_zero_row_onBoundary _, g.node_zero_row_onBoundary _⟩
  | right =>
    obtain ⟨j, -, rfl⟩ := List.mem_map.1 he
    exact ⟨g.node_last_column_onBoundary _, g.node_last_column_onBoundary _⟩
  | top =>
    obtain ⟨i, -, rfl⟩ := List.mem_map.1 he
    exact ⟨g.node_last_row_onBoundary _, g.node_last_row_onBoundary _⟩
  | left =>
    obtain ⟨j, -, rfl⟩ := List.mem_map.1 he
    exact ⟨g.node_zero_column_onBoundary _, g.node_zero_column_onBoundary _⟩

/-- The boundary flux is not seen by fields that vanish on the boundary. -/
theorem boundaryFlux_form {x : Fin m.nodes → ℝ} (hx : ∀ k, m.OnBoundary k → x k = 0) (y : Fin m.nodes → ℝ) :
    x ⬝ᵥ (boundaryFlux m).toMatrix *ᵥ y = 0 := by
  unfold boundaryFlux
  rw [Sparse.dotProduct_ofTriplets_mulVec]
  refine List.sum_eq_zero fun v hv => ?_
  obtain ⟨e, he, hv⟩ := List.mem_map.1 hv
  obtain ⟨edge, hedge, he⟩ := List.mem_flatMap.1 he
  obtain ⟨k, hk, he⟩ := List.mem_flatMap.1 he
  obtain ⟨b, -, rfl⟩ := List.mem_map.1 he
  have hboundary : m.OnBoundary k := by
    rcases List.mem_pair.1 hk with rfl | rfl
    · exact (boundary_onBoundary m.toGrid hedge).1
    · exact (boundary_onBoundary m.toGrid hedge).2
  rw [← hv, hx k hboundary, zero_mul, zero_mul]

/-- The boundary flux by the gradients on the triangles that have the boundary edges. -/
theorem boundaryFlux_slope (h : m.Proper) (x y : Fin m.nodes → ℝ) :
    x ⬝ᵥ (boundaryFlux m).toMatrix *ᵥ y = (m.boundary.map fun e => m.edgeLength e.side / 2 *
      (x e.start + x e.stop) * (Mesh.outwardNormal e.side).dot (m.slope y e.cell)).sum := by
  have hhalf : (0.5 : ℝ) = 1 / 2 := by norm_num
  unfold boundaryFlux
  rw [Sparse.dotProduct_ofTriplets_mulVec, sum_map_flatMap]
  refine congrArg List.sum (List.map_congr_left fun e _ => ?_)
  have hgradient := sum_gradient h y e.cell (Mesh.outwardNormal e.side)
  rw [← hgradient, Fin.sum_univ_three]
  simp only [List.flatMap_cons, List.flatMap_nil, List.append_nil, List.map_append, List.sum_append, List.map_map,
    Function.comp_def, sum_map_corners, Fin.sum_univ_three, Vec2.dot_comm (Element.gradient _ _), hhalf]
  ring

end Magnetofluid.Form
