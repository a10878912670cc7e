import Mathlib
import Magnetofluid.Proofs.Form.Jump
import Magnetofluid.Proofs.Form.Load

/-!
# Patch test and quadrature

Geometry, element matrices, quadrature rule and the scattering to nodes agree: affine functions are treated without
error by all of them, and the quadrature rule integrates polynomials of degree two.

* `Mesh.gradient_dual`: the gradients of the basis functions are dual to the sides of the triangle.
* `Form.convection_affine`: convection of an affine field by a constant velocity.
* `Form.load_affine`: the load of an affine function.
* `Form.quadrature_monomial`, `Form.quadrature_polynomial`: the rule on monomials, square by square, and on polynomials
  of degree two.
* `Form.patch_test`: all of this together.
-/

namespace Magnetofluid

open Matrix Grid

variable {m : Mesh ℝ}

/-! ### Triangles and interpolants -/

namespace Mesh

theorem element_area_of_pos (hx : 0 < m.lx) (hy : 0 < m.ly) (t : Fin m.triangles) :
    (m.element t).area = m.dx * m.dy / 2 := by
  rw [element_area, abs_of_pos (mul_pos (dx_pos hx) (dy_pos hy))]

/-- The side opposite a corner, seen from the corners. -/
theorem cross_reach_leg (m : Mesh ℝ) (a b : Fin 3) :
    (m.reach b).cross (m.leg a) = m.dx * m.dy * ((if a = b then 1 else 0) - if a = 0 then 1 else 0) := by
  fin_cases a <;> fin_cases b <;> simp [reach, leg, second, third, Vec2.cross, mul_comm]

/-- The gradient of a basis function changes its value between two corners by one if it comes to its own corner, and by
minus one if it leaves it. -/
theorem gradient_dual (h : m.Proper) (t : Fin m.triangles) (a b c : Fin 3) :
    ((m.element t).gradient a).dot (m.point (m.corner t b) - m.point (m.corner t c)) =
      (if a = b then 1 else 0) - if a = c then 1 else 0 := by
  refine mul_left_cancel₀ (mul_ne_zero h.1 h.2) ?_
  have hb := m.cross_reach_leg a b
  have hc := m.cross_reach_leg a c
  calc m.dx * m.dy * ((m.element t).gradient a).dot (m.point (m.corner t b) - m.point (m.corner t c))
      = m.direction t * m.direction t * (m.reach b - m.reach c).cross (m.leg a) := by
        rw [Vec2.dot_comm, mul_dot_gradient t a h]
        simp only [Vec2.cross, point_sub_corner_x, point_sub_corner_y]
        ring
    _ = (m.reach b).cross (m.leg a) - (m.reach c).cross (m.leg a) := by
        rw [m.direction_mul_self, one_mul]
        simp only [Vec2.cross, Vec2.x_sub, Vec2.y_sub]
        ring
    _ = _ := by
        rw [hb, hc]
        ring

/-- The interpolant takes the values of the function at the nodes. -/
theorem get_of_project {f : ℝ → ℝ → ℝ} {u : Vec ℝ m.nodes} (hu : m.project (.function f) = .ok u) (k : Fin m.nodes) :
    u.get k = f (m.point k).x (m.point k).y := by
  obtain rfl := Except.ok.inj hu
  rw [Vec.get_eq_getElem, Vector.getElem_ofFn]

end Mesh

/-! ### Affine functions -/

namespace Form

/-- Convection by a constant velocity of a field with one gradient. -/
theorem convection_affine (h : m.Proper) (v : Vec2 ℝ) {u : Vec ℝ m.nodes} {w : Vec2 ℝ}
    (hslope : ∀ t, m.slope u.values t = w) : (convection m (Vector.replicate m.triangles v)).mulVec u =
      Vec.scale (v.dot w) ((mass m).mulVec (Vec.fill m.nodes 1)) := by
  apply Vec.values_injective
  refine dotProduct_eq _ _ fun x => ?_
  rw [dotProduct_comm, dotProduct_comm _ x, Vec.values_scale, dotProduct_smul, Sparse.values_mulVec,
    Sparse.values_mulVec, convection_form h, mass_form, Vec.values_fill, smul_eq_mul, Finset.mul_sum]
  refine Finset.sum_congr rfl fun t _ => ?_
  have hvelocity : (Vector.replicate m.triangles v).get t = v := by
    rw [Vec.get_eq_getElem, Vector.getElem_replicate]
  rw [hvelocity, hslope]
  simp only [cornerSum, Fin.sum_univ_three]
  ring

/-- The load of an affine function is that of its interpolant. -/
theorem load_affine {a b c : ℝ} {u : Vec ℝ m.nodes}
    (hu : ∀ k, u.get k = a + b * (m.point k).x + c * (m.point k).y) :
    loadOf m (fun t q => a + b * (quadraturePoint m t q).x + c * (quadraturePoint m t q).y) = (mass m).mulVec u := by
  have hvalues : ∀ k, u.values k = a + b * (m.point k).x + c * (m.point k).y := hu
  refine loadOf_interpolated fun t q => ?_
  have hsum := sum_barycentric q
  simp only [hvalues, Fin.sum_univ_three] at hsum ⊢
  show a + b * (barycentric q 0 * (m.point (m.corner t 0)).x + barycentric q 1 * (m.point (m.corner t 1)).x +
      barycentric q 2 * (m.point (m.corner t 2)).x) +
    c * (barycentric q 0 * (m.point (m.corner t 0)).y + barycentric q 1 * (m.point (m.corner t 1)).y +
      barycentric q 2 * (m.point (m.corner t 2)).y) = _
  linear_combination -a * hsum

/-! ### Quadrature -/

/-- A quadrature point, seen from the first corner of its triangle. -/
theorem quadraturePoint_eq (t : Fin m.triangles) (q : Fin 3) : quadraturePoint m t q =
    ⟨(m.point (m.corner t first)).x + m.direction t * (barycentric q third * m.dx),
      (m.point (m.corner t first)).y + m.direction t * (barycentric q second * m.dy)⟩ := by
  have hsum := sum_barycentric q
  rw [Fin.sum_univ_three] at hsum
  unfold quadraturePoint
  simp only [m.point_corner t second, m.point_corner t third]
  show Vec2.mk _ _ = _
  congr 1
  · simp only [Mesh.reach, first, second, third]
    linear_combination (m.point (m.corner t 0)).x * hsum
  · simp only [Mesh.reach, first, second, third]
    linear_combination (m.point (m.corner t 0)).y * hsum

/-- What the rule gives on a triangle. -/
noncomputable def quadrature (m : Mesh ℝ) (f : ℝ → ℝ → ℝ) (t : Fin m.triangles) : ℝ :=
  (m.element t).area * (weight * ∑ q, f (quadraturePoint m t q).x (quadraturePoint m t q).y)

theorem quadrature_sum (m : Mesh ℝ) {ι : Type} (s : Finset ι) (c : ι → ℝ) (f : ι → ℝ → ℝ → ℝ) (t : Fin m.triangles) :
    quadrature m (fun x y => ∑ d ∈ s, c d * f d x y) t = ∑ d ∈ s, c d * quadrature m (f d) t := by
  unfold quadrature
  rw [Finset.sum_comm, Finset.mul_sum, Finset.mul_sum]
  refine Finset.sum_congr rfl fun d _ => ?_
  rw [← Finset.mul_sum]
  ring

theorem integral_monomial {a b c d : ℝ} (hab : a ≤ b) (hcd : c ≤ d) (k l : ℕ) :
    ∫ z in Set.Icc a b ×ˢ Set.Icc c d, z.1 ^ k * z.2 ^ l = (∫ x in a..b, x ^ k) * ∫ y in c..d, y ^ l := by
  rw [intervalIntegral.integral_of_le hab, intervalIntegral.integral_of_le hcd,
    ← MeasureTheory.integral_Icc_eq_integral_Ioc, ← MeasureTheory.integral_Icc_eq_integral_Ioc]
  exact MeasureTheory.setIntegral_prod_mul (fun x => x ^ k) (fun y => y ^ l) _ _

/-- The integrals over the steps of a walk add up to the integral over the whole way. -/
theorem sum_integral_steps (a h : ℝ) (n k : ℕ) :
    ∑ i : Fin n, ∫ x in (a + (i : ℕ) * h)..(a + (i + 1 : ℕ) * h), x ^ k = ∫ x in a..(a + n * h), x ^ k := by
  rw [Fin.sum_univ_eq_sum_range (fun i => ∫ x in (a + i * h)..(a + (i + 1 : ℕ) * h), x ^ k),
    intervalIntegral.sum_integral_adjacent_intervals (a := fun i : ℕ => a + i * h)
      fun i _ => intervalIntegral.intervalIntegrable_pow k, Nat.cast_zero, zero_mul, add_zero]

section Exact

variable (hx : 0 < m.lx) (hy : 0 < m.ly)
include hx hy

/-- The rule on the two triangles of a square. -/
theorem quadrature_square (i : Fin m.nx) (j : Fin m.ny) {k l : ℕ} (h : k + l ≤ 2) :
    quadrature m (fun x y => x ^ k * y ^ l) (m.lower i j) + quadrature m (fun x y => x ^ k * y ^ l) (m.upper i j) =
      (∫ x in (m.x0 + (i : ℕ) * m.dx)..(m.x0 + (i + 1 : ℕ) * m.dx), x ^ k) *
        ∫ y in (m.y0 + (j : ℕ) * m.dy)..(m.y0 + (j + 1 : ℕ) * m.dy), y ^ l := by
  simp only [quadrature, Mesh.element_area_of_pos hx hy, quadraturePoint_eq, corner_lower_first, corner_upper_first,
    Mesh.direction_lower, Mesh.direction_upper, Mesh.point_node, barycentric_real, weight_real, integral_pow,
    Fin.sum_univ_three, Fin.val_castSucc, Fin.val_succ, second, third, Nat.cast_add, Nat.cast_one]
  obtain ⟨hk, hl⟩ : k ≤ 2 ∧ l ≤ 2 - k := by omega
  -- Six monomials, on each of which both sides are polynomials in the lower corner and the steps.
  interval_cases k <;> interval_cases l <;> simp <;> ring

/-- The rule on the whole mesh, on a monomial. -/
theorem quadrature_monomial {k l : ℕ} (h : k + l ≤ 2) : ∑ t, quadrature m (fun x y => x ^ k * y ^ l) t =
    ∫ z in Set.Icc m.x0 (m.x0 + m.lx) ×ˢ Set.Icc m.y0 (m.y0 + m.ly), z.1 ^ k * z.2 ^ l := by
  calc ∑ t, quadrature m (fun x y => x ^ k * y ^ l) t
      = ∑ j : Fin m.ny, ∑ i : Fin m.nx, (∫ x in (m.x0 + (i : ℕ) * m.dx)..(m.x0 + (i + 1 : ℕ) * m.dx), x ^ k) *
          ∫ y in (m.y0 + (j : ℕ) * m.dy)..(m.y0 + (j + 1 : ℕ) * m.dy), y ^ l := by
        rw [m.sum_triangles]
        simp only [quadrature_square hx hy _ _ h]
    _ = (∫ x in m.x0..(m.x0 + m.lx), x ^ k) * ∫ y in m.y0..(m.y0 + m.ly), y ^ l := by
        rw [Finset.sum_comm, ← Finset.sum_mul_sum, sum_integral_steps, sum_integral_steps, m.nx_mul_dx, m.ny_mul_dy]
    _ = _ := (integral_monomial (le_add_of_nonneg_right hx.le) (le_add_of_nonneg_right hy.le) k l).symm

/-- The rule is exact on polynomials of degree two, one monomial after the other. -/
theorem quadrature_polynomial {p : MvPolynomial (Fin 2) ℝ} (hp : p.totalDegree ≤ 2) :
    ∑ t, quadrature m (fun x y => MvPolynomial.eval ![x, y] p) t =
      ∫ z in Set.Icc m.x0 (m.x0 + m.lx) ×ˢ Set.Icc m.y0 (m.y0 + m.ly), MvPolynomial.eval ![z.1, z.2] p := by
  have heval : ∀ x y, MvPolynomial.eval ![x, y] p = ∑ d ∈ p.support, p.coeff d * (x ^ d 0 * y ^ d 1) := fun x y => by
    rw [MvPolynomial.eval_eq']
    simp only [Fin.prod_univ_two, Matrix.cons_val_zero, Matrix.cons_val_one]
  have hdegree : ∀ d ∈ p.support, d 0 + d 1 ≤ 2 := fun d hd => by
    have hle := MvPolynomial.le_totalDegree hd
    rw [Finsupp.sum_fintype _ _ fun _ => rfl, Fin.sum_univ_two] at hle
    exact hle.trans hp
  have hintegrable : ∀ d : Fin 2 →₀ ℕ, MeasureTheory.IntegrableOn
      (fun z : ℝ × ℝ => p.coeff d * (z.1 ^ d 0 * z.2 ^ d 1))
      (Set.Icc m.x0 (m.x0 + m.lx) ×ˢ Set.Icc m.y0 (m.y0 + m.ly)) := fun d =>
    ContinuousOn.integrableOn_compact (isCompact_Icc.prod isCompact_Icc) (by fun_prop)
  simp only [heval, quadrature_sum m p.support _ fun d x y => x ^ d 0 * y ^ d 1]
  rw [MeasureTheory.integral_finsetSum _ fun d _ => hintegrable d, Finset.sum_comm]
  refine Finset.sum_congr rfl fun d hd => ?_
  rw [← Finset.mul_sum, quadrature_monomial hx hy (hdegree d hd), MeasureTheory.integral_const_mul]

end Exact

/-! ### Patch test -/

/-- What the discretisation does without error. -/
structure PatchTest (m : Mesh ℝ) : Prop where
  dual : ∀ t a b c, ((m.element t).gradient a).dot (m.point (m.corner t b) - m.point (m.corner t c)) =
    (if a = b then 1 else 0) - if a = c then 1 else 0
  area : ∀ t, (m.element t).area = m.dx * m.dy / 2
  /-- An affine function has its gradient, its derivative along a constant velocity, and its load. -/
  affine : ∀ a b c, ∃ u, m.project (.function fun x y => a + b * x + c * y) = .ok u ∧
    (∀ t, (m.gradient u).get t = ⟨b, c⟩) ∧
    (∀ v, (convection m (Vector.replicate m.triangles v)).mulVec u =
      Vec.scale (v.dot ⟨b, c⟩) ((mass m).mulVec (Vec.fill m.nodes 1))) ∧
    load m (.function fun x y => a + b * x + c * y) = .ok ((mass m).mulVec u)
  /-- The load of a polynomial of degree two adds up to its integral over the rectangle. -/
  quadratic : ∀ p : MvPolynomial (Fin 2) ℝ, p.totalDegree ≤ 2 →
    ∃ F, load m (.function fun x y => MvPolynomial.eval ![x, y] p) = .ok F ∧ ∑ i, F.get i =
      ∫ z in Set.Icc m.x0 (m.x0 + m.lx) ×ˢ Set.Icc m.y0 (m.y0 + m.ly), MvPolynomial.eval ![z.1, z.2] p

/-- **Patch test.**  On every mesh of positive size the gradients of the basis functions are dual to the corners, affine
functions are treated without error, and loads of polynomials of degree two have the right sum. -/
theorem patch_test (hx : 0 < m.lx) (hy : 0 < m.ly) : PatchTest m where
  dual := Mesh.gradient_dual (Mesh.proper_of_pos hx hy)
  area := Mesh.element_area_of_pos hx hy
  affine a b c := by
    have hproper := Mesh.proper_of_pos hx hy
    obtain ⟨u, hproject⟩ : ∃ u, m.project (.function fun x y => a + b * x + c * y) = .ok u := ⟨_, rfl⟩
    have hu := Mesh.get_of_project hproject
    have hslope := slope_affine hproper hu
    refine ⟨u, hproject, fun t => ?_, fun v => convection_affine hproper v hslope, congrArg Except.ok (load_affine hu)⟩
    rw [get_gradient hproper, hslope]
  quadratic p hp := ⟨_, rfl, (sum_loadOf _).trans (quadrature_polynomial hx hy hp)⟩

theorem patch_test_tower : 0 < Mesh.tower.lx ∧ 0 < Mesh.tower.ly ∧
    (MvPolynomial.X 0 * MvPolynomial.X 1 : MvPolynomial (Fin 2) ℝ).totalDegree ≤ 2 ∧ PatchTest Mesh.tower ∧
    ∃ F, load Mesh.tower (.function fun x y => x * y) = .ok F ∧ ∑ i, F.get i = -3 / 4 := by
  have hx : 0 < Mesh.tower.lx := by simp [Mesh.tower]
  have hy : 0 < Mesh.tower.ly := by simp [Mesh.tower]
  have hdegree : (MvPolynomial.X 0 * MvPolynomial.X 1 : MvPolynomial (Fin 2) ℝ).totalDegree ≤ 2 :=
    (MvPolynomial.totalDegree_mul _ _).trans (by simp)
  have htest := patch_test hx hy
  obtain ⟨F, hload, hsum⟩ := htest.quadratic _ hdegree
  simp only [map_mul, MvPolynomial.eval_X, Matrix.cons_val_zero, Matrix.cons_val_one] at hload hsum
  refine ⟨hx, hy, hdegree, htest, F, hload, hsum.trans ?_⟩
  have hintegral := integral_monomial (le_add_of_nonneg_right (a := Mesh.tower.x0) hx.le)
    (le_add_of_nonneg_right (a := Mesh.tower.y0) hy.le) 1 1
  simp only [pow_one] at hintegral
  rw [hintegral, integral_id, integral_id]
  simp only [Mesh.tower]
  norm_num

end Form

end Magnetofluid
