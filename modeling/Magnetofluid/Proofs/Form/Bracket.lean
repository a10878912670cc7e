import Mathlib
import Magnetofluid.Proofs.Form.Bilinear

/-!
# The bracket is skew

The form `x · N(u) y` of the bracket changes its sign with each exchange of two of its three fields.

* `Form.bracket_swap`: exchange of `u` and `y`, on each triangle; so the bracket is linear in `u`, as it is in `y`.
* `Form.bracket_skew`: exchange of `x` and `y`, if one of them vanishes on the boundary.  What the two triangles at an
  edge contribute cancels there, so that only the boundary is left.
* `Form.bracket_skew_of_level`: the same exchange for any two fields, if `u` has one value on the boundary.
* `Form.bracket_poisson`: what this says of the entries of the matrix and of its products.
-/

namespace Magnetofluid.Form

open Matrix Grid

variable {m : Mesh ℝ}

def jacobian (u y : Fin m.nodes → ℝ) (t : Fin m.triangles) : ℝ :=
  (u (m.corner t second) - u (m.corner t first)) * (y (m.corner t third) - y (m.corner t first)) -
    (u (m.corner t third) - u (m.corner t first)) * (y (m.corner t second) - y (m.corner t first))

/-- The gradient of a field along the level lines of another one. -/
theorem perp_dot_slope (u y : Fin m.nodes → ℝ) (t : Fin m.triangles) :
    Vec2.dot ⟨(m.slope u t).y, -(m.slope u t).x⟩ (m.slope y t) = jacobian u y t / (m.dx * m.dy) := by
  have hunit := m.direction_mul_self t
  simp only [Vec2.dot, Mesh.slope, div_eq_mul_inv, mul_inv]
  have hterm : ∀ a b : ℝ, m.direction t * a * m.dx⁻¹ * (m.direction t * b * m.dy⁻¹) = a * b * (m.dx⁻¹ * m.dy⁻¹) := by
    intro a b
    linear_combination (a * b * (m.dx⁻¹ * m.dy⁻¹)) * hunit
  rw [mul_comm (m.direction t * _ * m.dy⁻¹), neg_mul, hterm, hterm, jacobian]
  ring

theorem bracket_form (h : m.Proper) (u : Vec ℝ m.nodes) (x y : Fin m.nodes → ℝ) :
    x ⬝ᵥ (bracket m u).toMatrix *ᵥ y =
      ∑ t, (m.element t).area / 3 * cornerSum x t * (jacobian u.values y t / (m.dx * m.dy)) := by
  unfold bracket
  rw [convection_form h]
  refine Finset.sum_congr rfl fun t _ => ?_
  have hvelocity : (m.perpGradient u).get t = ⟨(m.slope u.values t).y, -(m.slope u.values t).x⟩ := by
    unfold Mesh.perpGradient
    rw [Vec.get_eq_getElem, Vector.getElem_ofFn, Mesh.gradientOn_eq h]
  rw [hvelocity, perp_dot_slope]

theorem bracket_swap (h : m.Proper) (u y : Vec ℝ m.nodes) (x : Fin m.nodes → ℝ) :
    x ⬝ᵥ (bracket m u).toMatrix *ᵥ y.values = -(x ⬝ᵥ (bracket m y).toMatrix *ᵥ u.values) := by
  rw [bracket_form h, bracket_form h, ← Finset.sum_neg_distrib]
  refine Finset.sum_congr rfl fun t _ => ?_
  simp only [jacobian]
  ring

theorem bracket_mulVec_swap (h : m.Proper) (u y : Vec ℝ m.nodes) :
    (bracket m u).toMatrix *ᵥ y.values = -((bracket m y).toMatrix *ᵥ u.values) := by
  refine dotProduct_eq _ _ fun x => ?_
  rw [dotProduct_comm, dotProduct_comm _ x, dotProduct_neg]
  exact bracket_swap h u y x

theorem bracket_add_mulVec (h : m.Proper) (u v y : Vec ℝ m.nodes) :
    (bracket m (u + v)).toMatrix *ᵥ y.values =
      (bracket m u).toMatrix *ᵥ y.values + (bracket m v).toMatrix *ᵥ y.values := by
  rw [bracket_mulVec_swap h, bracket_mulVec_swap h u, bracket_mulVec_swap h v, Vec.values_add, mulVec_add, neg_add]

theorem bracket_scale_mulVec (h : m.Proper) (c : ℝ) (u y : Vec ℝ m.nodes) :
    (bracket m (Vec.scale c u)).toMatrix *ᵥ y.values = c • (bracket m u).toMatrix *ᵥ y.values := by
  rw [bracket_mulVec_swap h, bracket_mulVec_swap h u, Vec.values_scale, mulVec_smul, smul_neg]

theorem bracket_self (h : m.Proper) (u : Vec ℝ m.nodes) (x : Fin m.nodes → ℝ) :
    x ⬝ᵥ (bracket m u).toMatrix *ᵥ u.values = 0 := by
  linarith [bracket_swap h u u x]

/-- What two fields carry along an edge of a third one. -/
def edgeFlux (u x y : Fin m.nodes → ℝ) (p q : Fin m.nodes) : ℝ :=
  (u q - u p) * (2 * (x p * y p) + x p * y q + x q * y p + 2 * (x q * y q))

/-- The symmetric part of the bracket on a triangle flows around it. -/
theorem cornerSum_jacobian_add (u x y : Fin m.nodes → ℝ) (t : Fin m.triangles) :
    cornerSum x t * jacobian u y t + cornerSum y t * jacobian u x t = -m.circulation (edgeFlux u x y) t := by
  simp only [cornerSum, jacobian, circulation, edgeFlux, Fin.sum_univ_three, first, second, third]
  ring

/-- What two fields exchange by the bracket in both orders is what flows around the triangles. -/
theorem bracket_add_swap (h : m.Proper) (u : Vec ℝ m.nodes) (x y : Fin m.nodes → ℝ) :
    x ⬝ᵥ (bracket m u).toMatrix *ᵥ y + y ⬝ᵥ (bracket m u).toMatrix *ᵥ x =
      -(|m.dx * m.dy| / 6 / (m.dx * m.dy)) * ∑ t, m.circulation (edgeFlux u.values x y) t := by
  rw [bracket_form h, bracket_form h, ← Finset.sum_add_distrib, Finset.mul_sum]
  refine Finset.sum_congr rfl fun t _ => ?_
  rw [Mesh.element_area]
  linear_combination (|m.dx * m.dy| / 6 / (m.dx * m.dy)) * cornerSum_jacobian_add u.values x y t

/-- The bracket is skew for any two fields that carry nothing along the boundary. -/
theorem bracket_skew_of_edgeFlux (h : m.Proper) (u : Vec ℝ m.nodes) {x y : Fin m.nodes → ℝ}
    (hflux : ∀ p q, m.OnBoundary p → m.OnBoundary q → edgeFlux u.values x y p q = 0) :
    x ⬝ᵥ (bracket m u).toMatrix *ᵥ y = -(y ⬝ᵥ (bracket m u).toMatrix *ᵥ x) := by
  have hanti : ∀ p q, edgeFlux u.values x y q p = -edgeFlux u.values x y p q := by
    intro p q
    simp only [edgeFlux]
    ring
  rw [eq_neg_iff_add_eq_zero, bracket_add_swap h, m.sum_circulation hanti hflux, mul_zero]

theorem bracket_skew (h : m.Proper) (u : Vec ℝ m.nodes) {x : Fin m.nodes → ℝ}
    (hx : ∀ k, m.OnBoundary k → x k = 0) (y : Fin m.nodes → ℝ) :
    x ⬝ᵥ (bracket m u).toMatrix *ᵥ y = -(y ⬝ᵥ (bracket m u).toMatrix *ᵥ x) := by
  refine bracket_skew_of_edgeFlux h u fun p q hp hq => ?_
  simp only [edgeFlux, hx p hp, hx q hq]
  ring

/-- Along a wall of one value nothing is carried, whatever the two fields. -/
theorem bracket_skew_of_level (h : m.Proper) {u : Vec ℝ m.nodes}
    (hu : ∀ k l, m.OnBoundary k → m.OnBoundary l → u.values k = u.values l) (x y : Fin m.nodes → ℝ) :
    x ⬝ᵥ (bracket m u).toMatrix *ᵥ y = -(y ⬝ᵥ (bracket m u).toMatrix *ᵥ x) := by
  refine bracket_skew_of_edgeFlux h u fun p q hp hq => ?_
  rw [edgeFlux, hu q p hq hp, sub_self, zero_mul]

/-- The bracket takes constants to zero. -/
theorem bracket_const (h : m.Proper) (u : Vec ℝ m.nodes) (x : Fin m.nodes → ℝ) :
    x ⬝ᵥ (bracket m u).toMatrix *ᵥ 1 = 0 := by
  rw [bracket_form h]
  refine Finset.sum_eq_zero fun t _ => ?_
  simp [jacobian]

/-! ### Poisson bracket -/

/-- **The bracket is a discrete Poisson bracket.**  It changes its sign when its two fields are exchanged; as a matrix
it is skew but for the entries between two nodes of the boundary, and skew as a whole if its potential has one value on
the boundary.  Then it neither produces nor moves anything in sum. -/
theorem bracket_poisson (h : m.Proper) (phi psi : Vec ℝ m.nodes) :
    (bracket m phi).mulVec psi = -(bracket m psi).mulVec phi ∧
      (∀ a b, ¬ m.OnBoundary a ∨ ¬ m.OnBoundary b → (bracket m phi).entry a b = -(bracket m phi).entry b a) ∧
      (∀ a, ¬ m.OnBoundary a → (bracket m phi).entry a a = 0) ∧
      ((∀ k l, m.OnBoundary k → m.OnBoundary l → phi.get k = phi.get l) →
        (∀ a b, (bracket m phi).entry a b = -(bracket m phi).entry b a) ∧
          Vec.dot psi ((bracket m phi).mulVec psi) = 0 ∧
          sumFin m.nodes ((bracket m phi).mulVec psi).get = 0) := by
  have hinner : ∀ a b, ¬ m.OnBoundary a → (bracket m phi).entry a b = -(bracket m phi).entry b a := by
    intro a b ha
    rw [Sparse.entry_eq_form, Sparse.entry_eq_form]
    refine bracket_skew h phi (fun k hk => ?_) _
    exact Pi.single_eq_of_ne (fun hka : k = a => ha (hka ▸ hk)) 1
  refine ⟨?_, ?_, ?_, fun hphi => ⟨?_, ?_, ?_⟩⟩
  · refine Vec.values_injective (dotProduct_eq _ _ fun x => ?_)
    rw [dotProduct_comm, dotProduct_comm _ x, Vec.values_neg, Sparse.values_mulVec, Sparse.values_mulVec,
      dotProduct_neg]
    exact bracket_swap h phi psi x
  · rintro a b (ha | hb)
    · exact hinner a b ha
    · rw [hinner b a hb, neg_neg]
  · intro a ha
    exact self_eq_neg.1 (hinner a a ha)
  · intro a b
    rw [Sparse.entry_eq_form, Sparse.entry_eq_form]
    exact bracket_skew_of_level h hphi _ _
  · rw [Vec.dot_eq, Sparse.values_mulVec]
    exact self_eq_neg.1 (bracket_skew_of_level h hphi psi.values psi.values)
  · have hskew := bracket_skew_of_level h hphi 1 psi.values
    rw [bracket_const h, neg_zero, ← Sparse.values_mulVec, one_dotProduct] at hskew
    exact (sumFin_eq_sum _ _).trans hskew

/-- A potential of the unit square that rises from the boundary to the node in the middle. -/
noncomputable def hill : Vec ℝ Mesh.unitSquare.nodes := .ofFn fun k => if Mesh.unitSquare.OnBoundary k then 2 else 3

noncomputable def incline : Vec ℝ Mesh.unitSquare.nodes := .ofFn fun k => (Mesh.unitSquare.point k).x

theorem bracket_poisson_hill :
    (bracket Mesh.unitSquare hill).mulVec incline = -(bracket Mesh.unitSquare incline).mulVec hill ∧
      ¬ Mesh.unitSquare.OnBoundary (Mesh.unitSquare.node 1 1) ∧
      (bracket Mesh.unitSquare incline).entry (Mesh.unitSquare.node 1 1) (Mesh.unitSquare.node 1 1) = 0 ∧
      (∀ a b, (bracket Mesh.unitSquare hill).entry a b = -(bracket Mesh.unitSquare hill).entry b a) ∧
      Vec.dot incline ((bracket Mesh.unitSquare hill).mulVec incline) = 0 ∧
      sumFin _ ((bracket Mesh.unitSquare hill).mulVec incline).get = 0 := by
  have hmiddle : ¬ Mesh.unitSquare.OnBoundary (Mesh.unitSquare.node 1 1) := by decide
  have hlevel : ∀ k, Mesh.unitSquare.OnBoundary k → hill.get k = 2 := by
    intro k hk
    simp [hill, hk]
  obtain ⟨hswap, -, -, hskew⟩ := bracket_poisson Mesh.unitSquare_proper hill incline
  obtain ⟨-, -, hdiagonal, -⟩ := bracket_poisson Mesh.unitSquare_proper incline hill
  exact ⟨hswap, hmiddle, hdiagonal _ hmiddle, hskew fun k l hk hl => (hlevel k hk).trans (hlevel l hl).symm⟩

end Magnetofluid.Form
