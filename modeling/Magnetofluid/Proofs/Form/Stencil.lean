import Mathlib
import Magnetofluid.Proofs.Form.Bilinear
import Magnetofluid.Proofs.Mesh.Sides

/-!
# Stencil of the stiffness matrix

The legs of a triangle are at right angles, so that on each triangle the stiffness matrix joins the ends of the legs and
nothing else.  In the grid the legs lie along rows and columns: what is left of a row of the matrix is a stencil of five
points, whatever the shape of the squares.

* `Grid.adjacent_iff_exists_leg`, `Grid.card_adjacent_le`: the ends of the legs are the neighbours in a row or a column,
  of which a node has at most four.
* `Form.stiffness_entry_eq`: an entry off the diagonal, summed over the triangles.
* `Form.stiffness_fivePoint`: the rows of the matrix.
-/

namespace Magnetofluid

open Matrix

namespace Grid

variable {g : Grid} {p q : Fin g.nodes}

def Adjacent (p q : Fin g.nodes) : Prop :=
  ((g.row p).val = g.row q ∧ ((g.column p).val + 1 = g.column q ∨ (g.column q).val + 1 = g.column p)) ∨
    ((g.column p).val = g.column q ∧ ((g.row p).val + 1 = g.row q ∨ (g.row q).val + 1 = g.row p))

instance (p : Fin g.nodes) : DecidablePred (g.Adjacent p) := fun q => by unfold Adjacent; infer_instance

theorem Adjacent.ne (h : g.Adjacent p q) : p ≠ q := by
  rintro rfl
  unfold Adjacent at h
  omega

theorem Adjacent.near (h : g.Adjacent p q) : Near p q := by
  unfold Adjacent at h
  constructor <;> omega

/-- A node has at most four neighbours. -/
theorem card_adjacent_le (p : Fin g.nodes) : (Finset.univ.filter (g.Adjacent p)).card ≤ 4 := by
  let c := (g.column p).val
  let r := (g.row p).val
  let places : Finset (ℕ × ℕ) := {(c + 1, r), (c - 1, r), (c, r + 1), (c, r - 1)}
  have hmaps : ∀ q ∈ Finset.univ.filter (g.Adjacent p), ((g.column q).val, (g.row q).val) ∈ places := by
    intro q hq
    have hadjacent := (Finset.mem_filter.1 hq).2
    unfold Adjacent at hadjacent
    simp only [places, c, r, Finset.mem_insert, Finset.mem_singleton, Prod.mk.injEq]
    omega
  have hinjective : Set.InjOn (fun q => ((g.column q).val, (g.row q).val))
      (Finset.univ.filter (g.Adjacent p) : Set (Fin g.nodes)) :=
    fun q _ q' _ h => eq_of_column_row (Prod.ext_iff.1 h).1 (Prod.ext_iff.1 h).2
  exact (Finset.card_le_card_of_injOn _ hmaps hinjective).trans Finset.card_le_four

theorem adjacent_comm : g.Adjacent p q ↔ g.Adjacent q p := by
  unfold Adjacent
  omega

/-- Two nodes that are near to each other are nodes of one triangle. -/
theorem exists_owner_of_near (hpq : p ≠ q) (hnear : Near p q) : ∃ t, t ∈ g.owners s(p, q) := by
  have hne := column_ne_or_row_ne hpq
  have hx := g.nx_pos
  have hy := g.ny_pos
  by_cases hlower : ¬ (g.OnSide .right p ∧ g.OnSide .right q) ∧ ¬ (g.OnSide .top p ∧ g.OnSide .top q)
  · obtain ⟨i, j, h⟩ := (exists_lower_iff hpq hnear).2 hlower
    exact ⟨_, h⟩
  · have hupper : ¬ (g.OnSide .left p ∧ g.OnSide .left q) ∧ ¬ (g.OnSide .bottom p ∧ g.OnSide .bottom q) := by
      obtain ⟨_, _, _, _, _, _⟩ := hnear
      simp only [OnSide] at hlower ⊢
      omega
    obtain ⟨i, j, h⟩ := (exists_upper_iff hpq hnear).2 hupper
    exact ⟨_, h⟩

/-- The legs of a triangle lie along the axes, its third side does not. -/
theorem adjacent_corners (t : Fin g.triangles) : ¬ g.Adjacent (g.corner t second) (g.corner t third) ∧
    g.Adjacent (g.corner t third) (g.corner t first) ∧ g.Adjacent (g.corner t first) (g.corner t second) := by
  obtain ⟨i, j, rfl | rfl⟩ := g.eq_lower_or_upper t
  · rw [corner_lower_first, corner_lower_second, corner_lower_third]
    simp [Adjacent]
  · rw [corner_upper_first, corner_upper_second, corner_upper_third]
    simp [Adjacent]

theorem adjacent_side_iff (t : Fin g.triangles) (b : Fin 3) :
    g.Adjacent (g.corner t (b + second)) (g.corner t (b + third)) ↔ b ≠ first := by
  obtain ⟨hdiagonal, hlevel, hupright⟩ := adjacent_corners t
  match b with
  | 0 => exact iff_of_false hdiagonal fun h => h rfl
  | 1 => exact iff_of_true hlevel (by decide)
  | 2 => exact iff_of_true hupright (by decide)

/-- Neighbours are the ends of the legs, which are opposite the second and the third corner of a triangle. -/
theorem adjacent_iff_exists_leg : g.Adjacent p q ↔ ∃ t, ∃ b ≠ first, g.side t b = s(p, q) := by
  have hsymm : ∀ t b, g.side t b = s(p, q) →
      (g.Adjacent p q ↔ g.Adjacent (g.corner t (b + second)) (g.corner t (b + third))) := by
    intro t b hside
    rcases Sym2.eq_iff.1 hside with ⟨rfl, rfl⟩ | ⟨rfl, rfl⟩
    · exact Iff.rfl
    · exact adjacent_comm
  constructor
  · intro h
    obtain ⟨t, ht⟩ := exists_owner_of_near h.ne h.near
    obtain ⟨b, hb⟩ := exists_side (fun hdiag => h.ne (Sym2.mk_isDiag_iff.1 hdiag)) ht
    exact ⟨t, b, (adjacent_side_iff t b).1 ((hsymm t b hb).1 h), hb⟩
  · rintro ⟨t, b, hb, hside⟩
    exact (hsymm t b hside).2 ((adjacent_side_iff t b).2 hb)

end Grid

/-! ### Stiffness -/

namespace Mesh

open Grid

variable {m : Mesh ℝ}

/-- How strongly the stiffness matrix joins the ends of a side, per area.  The sides are those opposite the corners. -/
noncomputable def joint (m : Mesh ℝ) : Fin 3 → ℝ
  | 0 => 0
  | 1 => (m.dx * m.dx)⁻¹
  | 2 => (m.dy * m.dy)⁻¹

theorem joint_nonneg (m : Mesh ℝ) (b : Fin 3) : 0 ≤ m.joint b := by
  match b with
  | 0 => exact le_rfl
  | 1 => exact inv_nonneg.2 (mul_self_nonneg _)
  | 2 => exact inv_nonneg.2 (mul_self_nonneg _)

theorem joint_ne_zero_iff (h : m.Proper) (b : Fin 3) : m.joint b ≠ 0 ↔ b ≠ first := by
  match b with
  | 0 => exact iff_of_false (fun h => h rfl) fun h => h rfl
  | 1 => exact iff_of_true (inv_ne_zero (mul_self_ne_zero.2 h.1)) (by decide)
  | 2 => exact iff_of_true (inv_ne_zero (mul_self_ne_zero.2 h.2)) (by decide)

/-- How strongly the stiffness matrix joins two nodes of a triangle, per area. -/
noncomputable def jointOf (m : Mesh ℝ) (z : Sym2 (Fin m.nodes)) (t : Fin m.triangles) : ℝ :=
  ∑ b with m.side t b = z, m.joint b

theorem jointOf_nonneg (z : Sym2 (Fin m.nodes)) (t : Fin m.triangles) : 0 ≤ m.jointOf z t :=
  Finset.sum_nonneg fun b _ => m.joint_nonneg b

theorem jointOf_ne_zero_iff (h : m.Proper) {z : Sym2 (Fin m.nodes)} {t : Fin m.triangles} :
    m.jointOf z t ≠ 0 ↔ ∃ b ≠ first, m.side t b = z := by
  rw [jointOf, Ne, Finset.sum_eq_zero_iff_of_nonneg fun b _ => m.joint_nonneg b]
  simp only [Finset.mem_filter_univ, not_forall, exists_prop, and_comm, ← joint_ne_zero_iff h]

/-- The gradients at two fields by the differences along the legs. -/
theorem slope_dot_slope (x y : Fin m.nodes → ℝ) (t : Fin m.triangles) : (m.slope x t).dot (m.slope y t) =
    ∑ b, m.joint b * ((x (m.corner t (b + second)) - x (m.corner t (b + third))) *
      (y (m.corner t (b + second)) - y (m.corner t (b + third)))) := by
  have hdirection := m.direction_mul_self t
  rw [Fin.sum_univ_three]
  show _ = 0 * _ + (m.dx * m.dx)⁻¹ * ((x (m.corner t third) - x (m.corner t first)) *
    (y (m.corner t third) - y (m.corner t first))) + (m.dy * m.dy)⁻¹ * ((x (m.corner t first) - x (m.corner t second)) *
    (y (m.corner t first) - y (m.corner t second)))
  simp only [slope, Vec2.dot, div_eq_mul_inv, mul_inv]
  linear_combination (m.dx⁻¹ * m.dx⁻¹ * (x (m.corner t third) - x (m.corner t first)) *
      (y (m.corner t third) - y (m.corner t first)) + m.dy⁻¹ * m.dy⁻¹ * (x (m.corner t second) - x (m.corner t first)) *
      (y (m.corner t second) - y (m.corner t first))) * hdirection

end Mesh

namespace Form

open Grid

variable {m : Mesh ℝ} {p q : Fin m.nodes}

/-- Two different unit fields have opposite differences between their nodes, and elsewhere one has none. -/
theorem single_sub_mul_single_sub (hpq : p ≠ q) (k l : Fin m.nodes) :
    ((Pi.single p 1 : Fin m.nodes → ℝ) k - (Pi.single p 1 : Fin m.nodes → ℝ) l) *
      ((Pi.single q 1 : Fin m.nodes → ℝ) k - (Pi.single q 1 : Fin m.nodes → ℝ) l) =
        if s(k, l) = s(p, q) then -1 else 0 := by
  simp only [Pi.single_apply, Sym2.eq_iff]
  grind

theorem stiffness_entry_eq (h : m.Proper) (hpq : p ≠ q) :
    (diffusion m 1).entry p q = -∑ t, (m.element t).area * m.jointOf s(p, q) t := by
  rw [Sparse.entry_eq_form, diffusion_form h, ← Finset.sum_neg_distrib]
  refine Finset.sum_congr rfl fun t _ => ?_
  rw [Mesh.slope_dot_slope, Mesh.jointOf, Finset.sum_filter, one_mul, ← mul_neg, ← Finset.sum_neg_distrib]
  refine congrArg _ (Finset.sum_congr rfl fun b _ => ?_)
  rw [single_sub_mul_single_sub hpq, side]
  split_ifs
  · ring
  · ring

theorem stiffness_joints_nonneg (h : m.Proper) (z : Sym2 (Fin m.nodes)) (t : Fin m.triangles) :
    0 ≤ (m.element t).area * m.jointOf z t :=
  mul_nonneg (m.element_area_pos h t).le (m.jointOf_nonneg z t)

/-- Apart from the diagonal, nodes are joined that are neighbours in a row or a column. -/
theorem stiffness_entry_ne_zero_iff (h : m.Proper) (hpq : p ≠ q) : (diffusion m 1).entry p q ≠ 0 ↔ m.Adjacent p q := by
  rw [stiffness_entry_eq h hpq, neg_ne_zero, Ne,
    Finset.sum_eq_zero_iff_of_nonneg fun t _ => stiffness_joints_nonneg h s(p, q) t]
  simp only [Finset.mem_univ, true_imp_iff, mul_eq_zero, (m.element_area_pos h _).ne', false_or, not_forall]
  rw [adjacent_iff_exists_leg]
  exact exists_congr fun t => Mesh.jointOf_ne_zero_iff h

/-- The rows of a matrix have the sum zero and no positive entry off the diagonal, and join a node to its neighbours. -/
structure IsFivePoint {g : Grid} (A : Sparse ℝ g.nodes g.nodes) : Prop where
  sum_row : ∀ i, ∑ j, A.entry i j = 0
  nonpos : ∀ i j, i ≠ j → A.entry i j ≤ 0
  ne_zero_iff : ∀ i j, i ≠ j → (A.entry i j ≠ 0 ↔ g.Adjacent i j)

theorem stiffness_fivePoint (h : m.Proper) : IsFivePoint (diffusion m 1) where
  sum_row i := by
    have hrow := diffusion_const h 1 (Pi.single i 1) 1
    rw [single_one_dotProduct, mulVec_apply_eq_sum] at hrow
    exact (Finset.sum_congr rfl fun j _ => (mul_one _).symm).trans hrow
  nonpos i j hij := by
    rw [stiffness_entry_eq h hij, neg_nonpos]
    exact Finset.sum_nonneg fun t _ => stiffness_joints_nonneg h _ t
  ne_zero_iff i j hij := stiffness_entry_ne_zero_iff h hij

end Form

end Magnetofluid
