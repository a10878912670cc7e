import Mathlib
import Magnetofluid.Proofs.Mesh.Outline
import Magnetofluid.Proofs.Mesh.Sides

/-!
# Outward normals

The outward unit normals of a triangle on its edges.  On a mesh of positive size there is one on each edge, and together
with the length of the edge it is the gradient of the basis function of the opposite corner, but for a factor.

* `Mesh.isOutward_outwardNormal`: the normals of the boundary edges are outward.
* `Mesh.IsOutward.half_length_mul_dot`: normals and gradients of basis functions.
* `Mesh.existsUnique_isOutward`: a triangle has one outward normal on each of its edges.
* `Mesh.HasNormals.sum_dot`: the normals of the two triangles of an edge are opposite.
-/

namespace Magnetofluid

namespace Vec2

@[simp] theorem x_sub (v w : Vec2 ℝ) : (v - w).x = v.x - w.x := rfl

@[simp] theorem y_sub (v w : Vec2 ℝ) : (v - w).y = v.y - w.y := rfl

def cross (v w : Vec2 ℝ) : ℝ := v.x * w.y - v.y * w.x

theorem dot_sub (n v w : Vec2 ℝ) : n.dot (v - w) = n.dot v - n.dot w := by
  simp only [dot, x_sub, y_sub]
  ring

theorem eq_of_dot {v v' : Vec2 ℝ} (h : ∀ w : Vec2 ℝ, w.dot v = w.dot v') : v = v' := by
  have hx := h ⟨1, 0⟩
  have hy := h ⟨0, 1⟩
  simp only [dot, one_mul, zero_mul, add_zero, zero_add] at hx hy
  exact congrArg₂ Vec2.mk hx hy

theorem norm_sub_comm (v w : Vec2 ℝ) : (v - w).norm = (w - v).norm := by
  simp only [norm, dot, x_sub, y_sub]
  congr 1
  ring

theorem norm_mul_self (v : Vec2 ℝ) : v.norm * v.norm = v.dot v :=
  Real.mul_self_sqrt (add_nonneg (mul_self_nonneg _) (mul_self_nonneg _))

theorem norm_pos_of_cross {v w : Vec2 ℝ} (h : 0 < v.cross w) : 0 < w.norm := by
  refine Real.sqrt_pos.2 (lt_of_le_of_ne (add_nonneg (mul_self_nonneg _) (mul_self_nonneg _)) fun hzero => h.ne' ?_)
  obtain ⟨hx, hy⟩ := mul_self_add_mul_self_eq_zero.1 hzero.symm
  rw [cross, hx, hy]
  ring

theorem dot_self_of_unit {n : Vec2 ℝ} (hunit : n.norm = 1) : n.dot n = 1 := by
  rw [← norm_mul_self, hunit, one_mul]

/-- In the frame of a unit vector what is orthogonal to it has one coordinate, the determinant. -/
theorem eq_of_dot_eq_zero {n d : Vec2 ℝ} (hunit : n.norm = 1) (hd : n.dot d = 0) :
    d.x = -(n.cross d * n.y) ∧ d.y = n.cross d * n.x := by
  have hone := dot_self_of_unit hunit
  simp only [dot, cross] at hone hd ⊢
  constructor
  · linear_combination n.x * hd - d.x * hone
  · linear_combination n.y * hd - d.y * hone

theorem cross_eq_zero {n d d' : Vec2 ℝ} (hunit : n.norm = 1) (hd : n.dot d = 0) (hd' : n.dot d' = 0) :
    d.cross d' = 0 := by
  obtain ⟨hx, hy⟩ := eq_of_dot_eq_zero hunit hd
  obtain ⟨hx', hy'⟩ := eq_of_dot_eq_zero hunit hd'
  rw [cross, hx, hy, hx', hy']
  ring

/-- A unit vector that is orthogonal to a second vector, and on whose other side a third one lies, is the second one
turned by a quarter and scaled. -/
theorem norm_mul_eq {n d v : Vec2 ℝ} (hunit : n.norm = 1) (hd : n.dot d = 0) (hv : n.dot v < 0)
    (hcross : 0 < v.cross d) : d.norm * n.x = -d.y ∧ d.norm * n.y = d.x := by
  have hone := dot_self_of_unit hunit
  obtain ⟨hx, hy⟩ := eq_of_dot_eq_zero hunit hd
  have hframe : v.cross d = n.cross d * n.dot v := by
    rw [cross, hx, hy, dot]
    ring
  have hneg : n.cross d < 0 := by
    rw [hframe] at hcross
    exact (neg_iff_neg_of_mul_pos hcross).2 hv
  have hdot : d.dot d = -n.cross d * -n.cross d := by
    rw [dot, hx, hy]
    simp only [dot] at hone
    linear_combination (n.cross d * n.cross d) * hone
  have hnorm : d.norm = -n.cross d := by rw [norm, hdot, Real.sqrt_mul_self (neg_pos.2 hneg).le]
  rw [hnorm]
  constructor
  · rw [hy]
    ring
  · rw [hx]
    ring

theorem exists_normal {d v : Vec2 ℝ} (hcross : 0 < v.cross d) :
    ∃ n : Vec2 ℝ, n.norm = 1 ∧ n.dot d = 0 ∧ n.dot v < 0 := by
  have hnorm := norm_pos_of_cross hcross
  have hself := d.norm_mul_self
  refine ⟨⟨-d.y / d.norm, d.x / d.norm⟩, ?_, ?_, ?_⟩
  · have hone : -d.y / d.norm * (-d.y / d.norm) + d.x / d.norm * (d.x / d.norm) = 1 := by
      rw [dot] at hself
      field_simp
      linear_combination -hself
    rw [norm, dot, hone, Real.sqrt_one]
  · rw [dot]
    ring
  · have hdot : -d.y / d.norm * v.x + d.x / d.norm * v.y = -(v.cross d / d.norm) := by
      rw [cross]
      ring
    rw [dot, hdot]
    exact neg_neg_of_pos (div_pos hcross hnorm)

end Vec2

namespace Mesh

open Grid

variable {m : Mesh ℝ}

/-! ### Normals on an edge -/

noncomputable def length (m : Mesh ℝ) : Sym2 (Fin m.nodes) → ℝ :=
  Sym2.lift ⟨fun p q => (m.point q - m.point p).norm, fun p q => Vec2.norm_sub_comm (m.point q) (m.point p)⟩

/-- A vector is a unit normal of an edge and leads out of a triangle there. -/
structure IsOutward (m : Mesh ℝ) (t : Fin m.triangles) (z : Sym2 (Fin m.nodes)) (n : Vec2 ℝ) : Prop where
  unit : n.norm = 1
  orthogonal : ∀ p ∈ z, ∀ q ∈ z, n.dot (m.point q - m.point p) = 0
  /-- The other corners of the triangle lie behind the edge. -/
  outward : ∀ p ∈ z, ∀ k, m.HasCorner t k → k ∉ z → n.dot (m.point k - m.point p) < 0

/-- One order of the end points and one of them as the origin are enough. -/
theorem isOutward_mk {t : Fin m.triangles} {p q : Fin m.nodes} {n : Vec2 ℝ} (hunit : n.norm = 1)
    (horthogonal : n.dot (m.point q - m.point p) = 0)
    (houtward : ∀ k, m.HasCorner t k → k ∉ s(p, q) → n.dot (m.point k - m.point p) < 0) :
    m.IsOutward t s(p, q) n := by
  simp only [Vec2.dot_sub] at horthogonal houtward
  refine ⟨hunit, fun a ha b hb => ?_, fun a ha k hk hkz => ?_⟩
  · rw [Vec2.dot_sub]
    obtain rfl | rfl := Sym2.mem_iff.1 ha <;> obtain rfl | rfl := Sym2.mem_iff.1 hb <;> linarith
  · have hk := houtward k hk hkz
    rw [Vec2.dot_sub]
    obtain rfl | rfl := Sym2.mem_iff.1 ha <;> linarith

/-- The normals of the boundary edges are outward, and their lengths are those of the segments. -/
theorem isOutward_outwardNormal (hx : 0 < m.lx) (hy : 0 < m.ly) {e : m.BoundaryEdge} (he : e ∈ m.boundary) :
    m.IsOutward e.cell e.ends (outwardNormal e.side) ∧ m.edgeLength e.side = m.length e.ends :=
  have houtlined := outlined hx hy
  ⟨isOutward_mk (houtlined.unit e he) (houtlined.orthogonal e he) (houtlined.outward e he), houtlined.length e he⟩

/-! ### Sides of a triangle -/

/-- The corners of a lower triangle, seen from the first one.  Those of an upper triangle lie the other way. -/
noncomputable def reach (m : Mesh ℝ) : Fin 3 → Vec2 ℝ
  | 0 => ⟨0, 0⟩
  | 1 => ⟨0, m.dy⟩
  | 2 => ⟨m.dx, 0⟩

/-- The way along the side opposite a corner, in a lower triangle. -/
noncomputable def leg (m : Mesh ℝ) (b : Fin 3) : Vec2 ℝ := m.reach (b + third) - m.reach (b + second)

/-- Two sides are parallel only if they are the same. -/
theorem eq_of_leg_cross (h : m.Proper) {b b' : Fin 3} (hcross : (m.leg b).cross (m.leg b') = 0) : b = b' := by
  obtain ⟨hx, hy⟩ := h
  match b, b' with
  | 0, 0 | 1, 1 | 2, 2 => rfl
  | 0, 1 | 0, 2 | 1, 0 | 1, 2 | 2, 0 | 2, 1 => simp [leg, reach, second, third, Vec2.cross, hx, hy] at hcross

theorem point_corner (t : Fin m.triangles) (a : Fin 3) : m.point (m.corner t a) =
    ⟨(m.point (m.corner t first)).x + m.direction t * (m.reach a).x,
      (m.point (m.corner t first)).y + m.direction t * (m.reach a).y⟩ := by
  match a with
  | 0 => simp [reach, first]
  | 1 =>
    obtain ⟨hx, hy⟩ := Vec2.mk.inj (m.point_second_sub_first t)
    show Vec2.mk (m.point (m.corner t second)).x (m.point (m.corner t second)).y = _
    rw [eq_add_of_sub_eq' hx, eq_add_of_sub_eq' hy]
    simp [reach]
  | 2 =>
    obtain ⟨hx, hy⟩ := Vec2.mk.inj (m.point_third_sub_first t)
    show Vec2.mk (m.point (m.corner t third)).x (m.point (m.corner t third)).y = _
    rw [eq_add_of_sub_eq' hx, eq_add_of_sub_eq' hy]
    simp [reach]

section Corners

variable (t : Fin m.triangles) (a a' b : Fin 3)

theorem point_sub_corner_x :
    (m.point (m.corner t a) - m.point (m.corner t a')).x = m.direction t * (m.reach a - m.reach a').x := by
  rw [point_corner t a, point_corner t a', Vec2.x_sub, Vec2.x_sub]
  ring

theorem point_sub_corner_y :
    (m.point (m.corner t a) - m.point (m.corner t a')).y = m.direction t * (m.reach a - m.reach a').y := by
  rw [point_corner t a, point_corner t a', Vec2.y_sub, Vec2.y_sub]
  ring

/-- The determinant of the two sides that meet at the corner before the opposite one. -/
theorem cross_point_sub_corner : Vec2.cross (m.point (m.corner t b) - m.point (m.corner t (b + second)))
    (m.point (m.corner t (b + third)) - m.point (m.corner t (b + second))) = m.dx * m.dy := by
  have hreach : (m.reach b - m.reach (b + second)).cross (m.leg b) = m.dx * m.dy := by
    match b with
    | 0 | 1 | 2 => simp [leg, reach, second, third, Vec2.cross, mul_comm]
  calc _ = m.direction t * m.direction t * (m.reach b - m.reach (b + second)).cross (m.leg b) := by
        simp only [Vec2.cross, point_sub_corner_x, point_sub_corner_y, leg]
        ring
    _ = m.dx * m.dy := by rw [m.direction_mul_self, one_mul, hreach]

variable {t b} in
theorem dot_leg_eq_zero {n : Vec2 ℝ} (h : n.dot (m.point (m.corner t (b + third)) - m.point (m.corner t (b + second))) = 0) :
    n.dot (m.leg b) = 0 := by
  calc n.dot (m.leg b) = m.direction t * m.direction t * n.dot (m.leg b) := by rw [m.direction_mul_self, one_mul]
    _ = m.direction t * n.dot (m.point (m.corner t (b + third)) - m.point (m.corner t (b + second))) := by
        simp only [Vec2.dot, point_sub_corner_x, point_sub_corner_y, leg]
        ring
    _ = 0 := by rw [h, mul_zero]

theorem dot_gradient_first (w : Vec2 ℝ) : w.dot ((m.element t).gradient 0) =
    -(w.dot ((m.element t).gradient 1) + w.dot ((m.element t).gradient 2)) := by
  show w.x * -((m.element t).gradient1.x + (m.element t).gradient2.x) +
    w.y * -((m.element t).gradient1.y + (m.element t).gradient2.y) = _
  simp only [Vec2.dot, Element.gradient]
  ring

/-- The gradient of a basis function is the side opposite its corner turned by a quarter. -/
theorem mul_dot_gradient (h : m.Proper) (w : Vec2 ℝ) :
    m.dx * m.dy * w.dot ((m.element t).gradient b) = m.direction t * w.cross (m.leg b) := by
  obtain ⟨hx, hy⟩ := h
  have hsecond : m.dx * m.dy * w.dot ((m.element t).gradient 1) = m.direction t * (w.y * m.dx) := by
    show m.dx * m.dy * w.dot (m.element t).gradient1 = _
    rw [element_gradient_second ⟨hx, hy⟩, Vec2.dot]
    field_simp
    ring
  have hthird : m.dx * m.dy * w.dot ((m.element t).gradient 2) = m.direction t * (w.x * m.dy) := by
    show m.dx * m.dy * w.dot (m.element t).gradient2 = _
    rw [element_gradient_third ⟨hx, hy⟩, Vec2.dot]
    field_simp
    ring
  fin_cases b
  · show m.dx * m.dy * w.dot ((m.element t).gradient 0) = m.direction t * (w.x * (0 - m.dy) - w.y * (m.dx - 0))
    rw [dot_gradient_first]
    linear_combination -hsecond - hthird
  · show m.dx * m.dy * w.dot ((m.element t).gradient 1) = m.direction t * (w.x * (0 - 0) - w.y * (0 - m.dx))
    linear_combination hsecond
  · show m.dx * m.dy * w.dot ((m.element t).gradient 2) = m.direction t * (w.x * (m.dy - 0) - w.y * (0 - 0))
    linear_combination hthird

end Corners

section Side

variable (hx : 0 < m.lx) (hy : 0 < m.ly) {t : Fin m.triangles} {b : Fin 3}
include hx hy

theorem cross_point_sub_corner_pos : 0 < Vec2.cross (m.point (m.corner t b) - m.point (m.corner t (b + second)))
    (m.point (m.corner t (b + third)) - m.point (m.corner t (b + second))) := by
  rw [cross_point_sub_corner]
  exact mul_pos (dx_pos hx) (dy_pos hy)

theorem length_side_pos : 0 < m.length (m.side t b) := Vec2.norm_pos_of_cross (cross_point_sub_corner_pos hx hy)

theorem exists_isOutward_side : ∃ n, m.IsOutward t (m.side t b) n := by
  obtain ⟨n, hunit, horthogonal, houtward⟩ := Vec2.exists_normal (cross_point_sub_corner_pos hx hy (t := t) (b := b))
  refine ⟨n, isOutward_mk hunit horthogonal fun k hk hside => ?_⟩
  rw [eq_corner_of_notMem_side hk hside]
  exact houtward

/-- The normal on a side is the side turned by a quarter. -/
theorem IsOutward.length_mul_dot {n : Vec2 ℝ} (hn : m.IsOutward t (m.side t b) n) (w : Vec2 ℝ) :
    m.length (m.side t b) * w.dot n = -(m.direction t * w.cross (m.leg b)) := by
  have hnotMem : m.corner t b ∉ m.side t b := fun h => corner_mem_side_iff.1 h rfl
  obtain ⟨hnx, hny⟩ := Vec2.norm_mul_eq hn.unit (hn.orthogonal _ (Sym2.mem_mk_left _ _) _ (Sym2.mem_mk_right _ _))
    (hn.outward _ (Sym2.mem_mk_left _ _) _ ⟨b, rfl⟩ hnotMem) (cross_point_sub_corner_pos hx hy)
  rw [point_sub_corner_y] at hnx
  rw [point_sub_corner_x] at hny
  show Vec2.norm _ * (w.x * n.x + w.y * n.y) =
    -(_ * (w.x * (m.reach (b + third) - m.reach (b + second)).y - w.y * (m.reach (b + third) - m.reach (b + second)).x))
  linear_combination w.x * hnx + w.y * hny

/-- Up to a factor the normal is the gradient of the basis function of the opposite corner, the other way. -/
theorem IsOutward.half_length_mul_dot {n : Vec2 ℝ} (hn : m.IsOutward t (m.side t b) n) (w : Vec2 ℝ) :
    m.length (m.side t b) / 2 * w.dot n = -((m.element t).area * w.dot ((m.element t).gradient b)) := by
  have hdx := dx_pos hx
  have hdy := dy_pos hy
  have hlength := hn.length_mul_dot hx hy w
  have hgradient := mul_dot_gradient t b (proper_of_pos hx hy) w
  rw [element_area, abs_of_pos (mul_pos hdx hdy)]
  linear_combination hlength / 2 + hgradient / 2

end Side

/-! ### Normals on all edges -/

/-- There is a normal for each triangle and each of its edges, and it is outward. -/
def HasNormals (m : Mesh ℝ) (normal : Fin m.triangles → Sym2 (Fin m.nodes) → Vec2 ℝ) : Prop :=
  ∀ t z, ¬ z.IsDiag → t ∈ m.owners z → m.IsOutward t z (normal t z)

section Edge

variable (hx : 0 < m.lx) (hy : 0 < m.ly) {t t' : Fin m.triangles} {z : Sym2 (Fin m.nodes)} (hz : ¬ z.IsDiag)
include hx hy hz

theorem existsUnique_isOutward (ht : t ∈ m.owners z) : ∃! n, m.IsOutward t z n := by
  obtain ⟨b, rfl⟩ := exists_side hz ht
  obtain ⟨n, hn⟩ := exists_isOutward_side hx hy
  have hpos : 0 < m.length (m.side t b) := length_side_pos hx hy
  refine ⟨n, hn, fun n' (hn' : m.IsOutward _ _ n') => Vec2.eq_of_dot fun w => mul_left_cancel₀ hpos.ne' ?_⟩
  rw [hn'.length_mul_dot hx hy, hn.length_mul_dot hx hy]

/-- The sides of a lower and of an upper triangle that meet are opposite corners of the same number. -/
theorem IsOutward.dot_add_dot {n n' : Vec2 ℝ} (hn : m.IsOutward t z n) (hn' : m.IsOutward t' z n')
    (ht : t ∈ m.owners z) (ht' : t' ∈ m.owners z) (hdirection : m.direction t' = -m.direction t) (w : Vec2 ℝ) :
    w.dot n + w.dot n' = 0 := by
  obtain ⟨b, rfl⟩ := exists_side hz ht
  obtain ⟨b', hb'⟩ := exists_side hz ht'
  have hpos : 0 < m.length (m.side t b) := length_side_pos hx hy
  -- both sides are orthogonal to the first of the normals
  have hleg : n.dot (m.leg b) = 0 := dot_leg_eq_zero (hn.orthogonal _ (Sym2.mem_mk_left _ _) _ (Sym2.mem_mk_right _ _))
  have hleg' : n.dot (m.leg b') = 0 := by
    rw [← hb'] at hn
    exact dot_leg_eq_zero (hn.orthogonal _ (Sym2.mem_mk_left _ _) _ (Sym2.mem_mk_right _ _))
  obtain rfl : b = b' := eq_of_leg_cross (proper_of_pos hx hy) (Vec2.cross_eq_zero hn.unit hleg hleg')
  have hsum := hn.length_mul_dot hx hy w
  rw [← hb'] at hn'
  have hsum' := hn'.length_mul_dot hx hy w
  rw [hb', hdirection] at hsum'
  refine mul_left_cancel₀ hpos.ne' ?_
  linear_combination hsum + hsum'

end Edge

theorem exists_hasNormals (hx : 0 < m.lx) (hy : 0 < m.ly) : ∃ normal, m.HasNormals normal := by
  have hexists : ∀ t z, ∃ n, ¬ z.IsDiag → t ∈ m.owners z → m.IsOutward t z n := by
    intro t z
    by_cases hz : ¬ z.IsDiag ∧ t ∈ m.owners z
    · obtain ⟨n, hn, -⟩ := existsUnique_isOutward hx hy hz.1 hz.2
      exact ⟨n, fun _ _ => hn⟩
    · exact ⟨⟨0, 0⟩, fun hdiag ht => absurd ⟨hdiag, ht⟩ hz⟩
  choose normal hnormal using hexists
  exact ⟨normal, hnormal⟩

/-- At an edge of two triangles nothing constant flows out of both. -/
theorem HasNormals.sum_dot (hx : 0 < m.lx) (hy : 0 < m.ly) {normal : Fin m.triangles → Sym2 (Fin m.nodes) → Vec2 ℝ}
    (hnormal : m.HasNormals normal) {z : Sym2 (Fin m.nodes)} (hz : z ∈ m.shared 2) (w : Vec2 ℝ) :
    ∑ t ∈ m.owners z, w.dot (normal t z) = 0 := by
  obtain ⟨hdiag, htwo⟩ := mem_shared.1 hz
  obtain ⟨i, j, i', j', hl, hu⟩ : ∃ i j i' j', m.lower i j ∈ m.owners z ∧ m.upper i' j' ∈ m.owners z := by
    induction z using Sym2.ind with
    | _ p q =>
      obtain ⟨⟨i, j, hl⟩, i', j', hu⟩ := (card_owners_eq_two_iff fun h => hdiag (Sym2.mk_isDiag_iff.2 h)).1 htwo
      exact ⟨i, j, i', j', hl, hu⟩
  have hdirection : m.direction (m.upper i' j') = -m.direction (m.lower i j) := by
    rw [direction_upper, direction_lower]
  have hne : m.lower i j ≠ m.upper i' j' := by
    intro h
    rw [← h, direction_lower] at hdirection
    norm_num at hdirection
  have howners : m.owners z = {m.lower i j, m.upper i' j'} := by
    symm
    refine Finset.eq_of_subset_of_card_le (Finset.insert_subset hl (Finset.singleton_subset_iff.2 hu)) ?_
    rw [htwo, Finset.card_pair hne]
  rw [howners, Finset.sum_pair hne]
  exact (hnormal _ z hdiag hl).dot_add_dot hx hy hdiag (hnormal _ z hdiag hu) hl hu hdirection w

end Mesh

end Magnetofluid
