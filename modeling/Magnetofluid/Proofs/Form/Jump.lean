import Mathlib
import Magnetofluid.Proofs.Form.Bilinear
import Magnetofluid.Proofs.Mesh.Normals

/-!
# Jumps of the normal derivative

Integrated by parts on each triangle, the stiffness matrix is the sum of what flows out of the triangles over their
sides.  The boundary flux is what flows out over the boundary edges, so that in the difference of the two the edges of
two triangles are left, at each of them the jump of the normal derivative.

* `Form.stiffness_eq_outflow`, `Form.boundaryFlux_eq_outflow`: both forms as sums of outflows.
* `Form.jump_form`, `Form.jump_apply`: their difference, edge by edge.
* `Form.jump_affine`: affine fields have no jumps.
-/

namespace Magnetofluid

namespace Form

open Matrix Grid

variable {m : Mesh ℝ}

/-! ### Outflow -/

def endSum {n : ℕ} (x : Fin n → ℝ) : Sym2 (Fin n) → ℝ :=
  Sym2.lift ⟨fun p q => x p + x q, fun p q => add_comm (x p) (x q)⟩

theorem endSum_single {n : ℕ} (i : Fin n) {z : Sym2 (Fin n)} (hz : ¬ z.IsDiag) :
    endSum (Pi.single i 1) z = if i ∈ z then 1 else 0 := by
  induction z using Sym2.ind with
  | _ p q =>
    rw [Sym2.mk_isDiag_iff] at hz
    show (Pi.single i 1 : Fin n → ℝ) p + (Pi.single i 1 : Fin n → ℝ) q = _
    by_cases hp : i = p
    · subst hp
      simp [hz]
    · by_cases hq : i = q
      · subst hq
        simp [hp]
      · simp [hp, hq]

/-- What flows out of a triangle over an edge along the gradient of a field, seen from both end points.  Each of them
gets half of it. -/
noncomputable def outflow (normal : Fin m.triangles → Sym2 (Fin m.nodes) → Vec2 ℝ) (x u : Fin m.nodes → ℝ)
    (t : Fin m.triangles) (z : Sym2 (Fin m.nodes)) : ℝ :=
  endSum x z * (m.length z * (m.slope u t).dot (normal t z))

section Outflow

variable (hx : 0 < m.lx) (hy : 0 < m.ly) {normal : Fin m.triangles → Sym2 (Fin m.nodes) → Vec2 ℝ}
  (hnormal : m.HasNormals normal) (x u : Fin m.nodes → ℝ)
include hx hy hnormal

theorem stiffness_eq_outflow :
    x ⬝ᵥ (diffusion m 1).toMatrix *ᵥ u = (∑ t, ∑ b, outflow normal x u t (m.side t b)) / 2 := by
  have hproper := Mesh.proper_of_pos hx hy
  rw [diffusion_form hproper, Finset.sum_div]
  refine Finset.sum_congr rfl fun t _ => ?_
  have hside : ∀ b, outflow normal x u t (m.side t b) / 2 =
      -((x (m.corner t (b + second)) + x (m.corner t (b + third))) *
        ((m.element t).area * (m.slope u t).dot ((m.element t).gradient b))) := by
    intro b
    have hn := hnormal t _ (side_not_isDiag t b) (mem_owners_side t b)
    rw [outflow, mul_div_assoc, mul_div_right_comm, hn.half_length_mul_dot hx hy, mul_neg]
    rfl
  simp only [Finset.sum_div, hside]
  rw [Vec2.dot_comm, ← sum_gradient hproper, Fin.sum_univ_three, Fin.sum_univ_three, Mesh.dot_gradient_first]
  show _ = -((x (m.corner t 1) + x (m.corner t 2)) * _) + -((x (m.corner t 2) + x (m.corner t 0)) * _) +
    -((x (m.corner t 0) + x (m.corner t 1)) * _)
  ring

theorem boundaryFlux_eq_outflow :
    x ⬝ᵥ (boundaryFlux m).toMatrix *ᵥ u = (m.boundary.map fun e => outflow normal x u e.cell e.ends).sum / 2 := by
  rw [boundaryFlux_slope (Mesh.proper_of_pos hx hy), div_eq_mul_inv, ← List.sum_map_mul_right]
  refine congrArg List.sum (List.map_congr_left fun e he => ?_)
  have halong := along_of_mem_boundary he
  have hdiag : ¬ e.ends.IsDiag := fun h => halong.start_ne_stop (Sym2.mk_isDiag_iff.1 h)
  obtain ⟨hn, hlength⟩ := Mesh.isOutward_outwardNormal hx hy he
  have hunique : normal e.cell e.ends = Mesh.outwardNormal e.side :=
    (Mesh.existsUnique_isOutward hx hy hdiag halong.mem_owners).unique (hnormal _ _ hdiag halong.mem_owners) hn
  rw [outflow, hunique, ← hlength, Vec2.dot_comm]
  show _ = (x e.start + x e.stop) * _ * _
  ring

/-- The edges of one triangle cancel, and at those of two their outflows are left. -/
theorem jump_form : x ⬝ᵥ (diffusion m 1 - boundaryFlux m).toMatrix *ᵥ u =
    (∑ z ∈ m.shared 2, ownerSum (outflow normal x u) z) / 2 := by
  rw [Sparse.toMatrix_sub, Matrix.sub_mulVec, dotProduct_sub, stiffness_eq_outflow hx hy hnormal,
    boundaryFlux_eq_outflow hx hy hnormal, sum_sides, sum_boundary, add_div, add_sub_cancel_left]

end Outflow

/-! ### Jumps -/

theorem get_gradient (h : m.Proper) (u : Vec ℝ m.nodes) (t : Fin m.triangles) :
    (m.gradient u).get t = m.slope u.values t := by
  rw [Mesh.gradient, Vec.get_eq_getElem, Vector.getElem_ofFn, Mesh.gradientOn_eq h]

section Jump

variable (hx : 0 < m.lx) (hy : 0 < m.ly) {normal : Fin m.triangles → Sym2 (Fin m.nodes) → Vec2 ℝ}
  (hnormal : m.HasNormals normal) (u : Vec ℝ m.nodes)
include hx hy hnormal

theorem jump_apply (i : Fin m.nodes) : ((diffusion m 1 - boundaryFlux m).mulVec u).get i =
    ∑ z ∈ m.shared 2 with i ∈ z,
      m.length z / 2 * ∑ t ∈ m.owners z, ((m.gradient u).get t).dot (normal t z) := by
  have hproper := Mesh.proper_of_pos hx hy
  have hform := jump_form hx hy hnormal (Pi.single i 1) u.values
  rw [single_one_dotProduct, ← Sparse.values_mulVec] at hform
  refine hform.trans ?_
  rw [Finset.sum_filter, Finset.sum_div]
  refine Finset.sum_congr rfl fun z hz => ?_
  simp only [ownerSum, outflow, endSum_single i (mem_shared.1 hz).1, get_gradient hproper]
  rw [← Finset.mul_sum, ← Finset.mul_sum, ite_mul, one_mul, zero_mul, ite_div, zero_div, mul_div_right_comm]

end Jump

end Form

/-! ### Affine fields -/

def Mesh.IsAffine (m : Mesh ℝ) (u : Vec ℝ m.nodes) : Prop :=
  ∃ a b c, ∀ k, u.get k = a + b * (m.point k).x + c * (m.point k).y

namespace Form

open Grid

variable {m : Mesh ℝ} {u : Vec ℝ m.nodes}

/-- The gradient of an affine field is that of the affine function. -/
theorem slope_affine (h : m.Proper) {a b c : ℝ} (hu : ∀ k, u.get k = a + b * (m.point k).x + c * (m.point k).y)
    (t : Fin m.triangles) : m.slope u.values t = ⟨b, c⟩ := by
  have hunit := m.direction_mul_self t
  obtain ⟨hx2, hy2⟩ := Vec2.mk.inj (m.point_second_sub_first t)
  obtain ⟨hx3, hy3⟩ := Vec2.mk.inj (m.point_third_sub_first t)
  have hvalues : ∀ k, u.values k = a + b * (m.point k).x + c * (m.point k).y := hu
  rw [Mesh.slope, hvalues, hvalues, hvalues]
  congr 1
  · rw [div_eq_iff h.1]
    linear_combination (m.direction t * b) * hx3 + (m.direction t * c) * hy3 + b * m.dx * hunit
  · rw [div_eq_iff h.2]
    linear_combination (m.direction t * b) * hx2 + (m.direction t * c) * hy2 + c * m.dy * hunit

theorem jump_affine (hx : 0 < m.lx) (hy : 0 < m.ly) (hu : m.IsAffine u) :
    (diffusion m 1 - boundaryFlux m).mulVec u = Vec.zeros m.nodes := by
  obtain ⟨normal, hnormal⟩ := m.exists_hasNormals hx hy
  have hproper := Mesh.proper_of_pos hx hy
  obtain ⟨a, b, c, hu⟩ := hu
  have hslope := slope_affine hproper hu
  refine Vec.values_injective (funext fun i => ?_)
  rw [Vec.values_zeros]
  refine (jump_apply hx hy hnormal u i).trans (Finset.sum_eq_zero fun z hz => ?_)
  simp only [get_gradient hproper, hslope]
  rw [hnormal.sum_dot hx hy (Finset.mem_filter.1 hz).1, mul_zero]

end Form

end Magnetofluid
