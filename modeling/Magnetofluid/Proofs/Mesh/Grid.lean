import Mathlib
import Magnetofluid.Mesh.Grid

/-!
# Nodes, triangles and boundary of a grid

The numbering of nodes and triangles read backwards, and sums over all triangles.

* `Grid.sum_triangles`: a sum over the triangles is a sum over the squares, of their lower and upper triangles.
* `Grid.sum_circulation`: what flows around the triangles flows along the boundary.  A quantity of directed edges that
  changes its sign with the direction cancels on every edge between two triangles, so that its sum around all triangles
  is zero if it is zero between nodes of the boundary.
* `Grid.eq_of_corners`: a field without differences on any triangle takes one value only.
-/

namespace Magnetofluid.Grid

variable (g : Grid)

/-! ### Nodes -/

@[simp] theorem column_node (i : Fin (g.nx + 1)) (j : Fin (g.ny + 1)) : g.column (g.node i j) = i := by
  apply Fin.ext
  show (i.val + j * (g.nx + 1)) % (g.nx + 1) = i
  rw [Nat.add_mul_mod_self_right, Nat.mod_eq_of_lt i.isLt]

@[simp] theorem row_node (i : Fin (g.nx + 1)) (j : Fin (g.ny + 1)) : g.row (g.node i j) = j := by
  apply Fin.ext
  show (i.val + j * (g.nx + 1)) / (g.nx + 1) = j
  rw [Nat.add_mul_div_right _ _ (Nat.succ_pos _), Nat.div_eq_of_lt i.isLt, Nat.zero_add]

@[simp] theorem node_column_row (k : Fin g.nodes) : g.node (g.column k) (g.row k) = k :=
  Fin.ext (Nat.mod_add_div' k.val (g.nx + 1))

def OnBoundary (k : Fin g.nodes) : Prop :=
  (g.column k).val = 0 ∨ g.column k = Fin.last g.nx ∨ (g.row k).val = 0 ∨ g.row k = Fin.last g.ny

instance : DecidablePred g.OnBoundary := fun k => by unfold OnBoundary; infer_instance

/-! ### Triangles -/

section Square

variable (i : Fin g.nx) (j : Fin g.ny)

theorem squareColumn_lower : g.squareColumn (g.lower i j) = i := by
  apply Fin.ext
  show 2 * (i.val + j * g.nx) / 2 % g.nx = i
  rw [Nat.mul_div_cancel_left _ (by decide), Nat.add_mul_mod_self_right, Nat.mod_eq_of_lt i.isLt]

theorem squareRow_lower : g.squareRow (g.lower i j) = j := by
  apply Fin.ext
  show 2 * (i.val + j * g.nx) / 2 / g.nx = j
  rw [Nat.mul_div_cancel_left _ (by decide), Nat.add_mul_div_right _ _ g.nx_pos, Nat.div_eq_of_lt i.isLt,
    Nat.zero_add]

theorem lower_even : (g.lower i j).val % 2 = 0 := Nat.mul_mod_right 2 _

theorem upper_odd : (g.upper i j).val % 2 = 1 := by
  show (2 * (i.val + j * g.nx) + 1) % 2 = 1
  omega

/-- Both triangles of a square have one half as their number, rounded down. -/
theorem upper_div_two : (g.upper i j).val / 2 = (g.lower i j).val / 2 := by
  show (2 * (i.val + j * g.nx) + 1) / 2 = 2 * (i.val + j * g.nx) / 2
  omega

theorem squareColumn_upper : g.squareColumn (g.upper i j) = i :=
  (Fin.ext (congrArg (· % g.nx) (upper_div_two g i j))).trans (squareColumn_lower g i j)

theorem squareRow_upper : g.squareRow (g.upper i j) = j :=
  (Fin.ext (congrArg (· / g.nx) (upper_div_two g i j))).trans (squareRow_lower g i j)

theorem corner_lower_first : g.corner (g.lower i j) first = g.node i.castSucc j.castSucc := by
  simp [corner, first, lower_even, squareColumn_lower, squareRow_lower]

theorem corner_lower_second : g.corner (g.lower i j) second = g.node i.castSucc j.succ := by
  simp [corner, second, lower_even, squareColumn_lower, squareRow_lower]

theorem corner_lower_third : g.corner (g.lower i j) third = g.node i.succ j.castSucc := by
  simp [corner, third, lower_even, squareColumn_lower, squareRow_lower]

theorem corner_upper_first : g.corner (g.upper i j) first = g.node i.succ j.succ := by
  simp [corner, first, upper_odd, squareColumn_upper, squareRow_upper]

theorem corner_upper_second : g.corner (g.upper i j) second = g.node i.succ j.castSucc := by
  simp [corner, second, upper_odd, squareColumn_upper, squareRow_upper]

theorem corner_upper_third : g.corner (g.upper i j) third = g.node i.castSucc j.succ := by
  simp [corner, third, upper_odd, squareColumn_upper, squareRow_upper]

end Square

/-- The halves of the squares, lower (`false`) and upper (`true`), are the triangles. -/
def halves : (Fin g.ny × Fin g.nx) × Bool ≃ Fin g.triangles where
  toFun s := if s.2 then g.upper s.1.2 s.1.1 else g.lower s.1.2 s.1.1
  invFun t := ((g.squareRow t, g.squareColumn t), t.val % 2 = 1)
  left_inv := by
    rintro ⟨⟨j, i⟩, b⟩
    cases b with
    | false => simp [squareRow_lower, squareColumn_lower, lower_even]
    | true => simp [squareRow_upper, squareColumn_upper, upper_odd]
  right_inv := by
    intro t
    have hsquare : t.val / 2 % g.nx + t.val / 2 / g.nx * g.nx = t.val / 2 := Nat.mod_add_div' _ _
    apply Fin.ext
    by_cases ht : t.val % 2 = 1
    · simp only [ht, decide_true, if_true]
      show 2 * (t.val / 2 % g.nx + t.val / 2 / g.nx * g.nx) + 1 = t
      omega
    · simp only [ht, decide_false]
      show 2 * (t.val / 2 % g.nx + t.val / 2 / g.nx * g.nx) = t
      omega

/-- Every triangle is the lower or the upper one of its square. -/
theorem eq_lower_or_upper (t : Fin g.triangles) : ∃ i j, t = g.lower i j ∨ t = g.upper i j := by
  obtain ⟨⟨⟨j, i⟩, b⟩, rfl⟩ := g.halves.surjective t
  cases b with
  | false => exact ⟨i, j, .inl rfl⟩
  | true => exact ⟨i, j, .inr rfl⟩

theorem sum_triangles (f : Fin g.triangles → ℝ) :
    ∑ t, f t = ∑ j, ∑ i, (f (g.lower i j) + f (g.upper i j)) := by
  rw [← g.halves.sum_comp, Fintype.sum_prod_type, Fintype.sum_prod_type]
  refine Finset.sum_congr rfl fun j _ => Finset.sum_congr rfl fun i _ => ?_
  rw [Fintype.sum_bool, add_comm]
  rfl

/-! ### Circulation -/

theorem sum_castSucc_sub_succ {n : ℕ} (f : Fin (n + 1) → ℝ) :
    ∑ i : Fin n, (f i.castSucc - f i.succ) = f 0 - f (Fin.last n) := by
  have h := (Fin.sum_univ_castSucc f).symm.trans (Fin.sum_univ_succ f)
  rw [Finset.sum_sub_distrib]
  linarith

/-- What flows around a triangle. -/
def circulation (f : Fin g.nodes → Fin g.nodes → ℝ) (t : Fin g.triangles) : ℝ :=
  f (g.corner t first) (g.corner t second) + f (g.corner t second) (g.corner t third) +
    f (g.corner t third) (g.corner t first)

theorem node_zero_column_onBoundary (j : Fin (g.ny + 1)) : g.OnBoundary (g.node 0 j) :=
  .inl (congrArg Fin.val (g.column_node 0 j))

theorem node_last_column_onBoundary (j : Fin (g.ny + 1)) : g.OnBoundary (g.node (Fin.last g.nx) j) :=
  .inr (.inl (g.column_node _ j))

theorem node_zero_row_onBoundary (i : Fin (g.nx + 1)) : g.OnBoundary (g.node i 0) :=
  .inr (.inr (.inl (congrArg Fin.val (g.row_node i 0))))

theorem node_last_row_onBoundary (i : Fin (g.nx + 1)) : g.OnBoundary (g.node i (Fin.last g.ny)) :=
  .inr (.inr (.inr (g.row_node i _)))

/-- What flows around all triangles is zero if nothing flows along the boundary. -/
theorem sum_circulation {f : Fin g.nodes → Fin g.nodes → ℝ} (hanti : ∀ p q, f q p = -f p q)
    (hboundary : ∀ p q, g.OnBoundary p → g.OnBoundary q → f p q = 0) : ∑ t, g.circulation f t = 0 := by
  -- the flow upwards in a column and to the right in a row
  let up (i : Fin (g.nx + 1)) (j : Fin g.ny) : ℝ := f (g.node i j.castSucc) (g.node i j.succ)
  let along (i : Fin g.nx) (j : Fin (g.ny + 1)) : ℝ := f (g.node i.castSucc j) (g.node i.succ j)
  have hsquare : ∀ i j, g.circulation f (g.lower i j) + g.circulation f (g.upper i j) =
      (up i.castSucc j - up i.succ j) - (along i j.castSucc - along i j.succ) := by
    intro i j
    unfold circulation
    rw [corner_lower_first, corner_lower_second, corner_lower_third, corner_upper_first, corner_upper_second,
      corner_upper_third]
    have h1 := hanti (g.node i.castSucc j.castSucc) (g.node i.succ j.castSucc)
    have h2 := hanti (g.node i.succ j.castSucc) (g.node i.succ j.succ)
    have h3 := hanti (g.node i.castSucc j.succ) (g.node i.succ j.castSucc)
    simp only [up, along]
    linarith
  have hup : ∑ j, ∑ i, (up (Fin.castSucc i) j - up (Fin.succ i) j) = 0 := by
    refine Finset.sum_eq_zero fun j _ => ?_
    rw [sum_castSucc_sub_succ (up · j)]
    simp only [up]
    rw [hboundary _ _ (g.node_zero_column_onBoundary _) (g.node_zero_column_onBoundary _),
      hboundary _ _ (g.node_last_column_onBoundary _) (g.node_last_column_onBoundary _), sub_zero]
  have halong : ∑ i, ∑ j, (along i (Fin.castSucc j) - along i (Fin.succ j)) = 0 := by
    refine Finset.sum_eq_zero fun i _ => ?_
    rw [sum_castSucc_sub_succ (along i)]
    simp only [along]
    rw [hboundary _ _ (g.node_zero_row_onBoundary _) (g.node_zero_row_onBoundary _),
      hboundary _ _ (g.node_last_row_onBoundary _) (g.node_last_row_onBoundary _), sub_zero]
  rw [sum_triangles]
  simp only [hsquare, Finset.sum_sub_distrib] at hup halong ⊢
  rw [Finset.sum_comm] at halong
  rw [Finset.sum_comm (f := fun i j => along i (Fin.succ j))] at halong
  linarith

/-! ### Fields without differences -/

/-- A field that takes one value at all corners of each triangle takes one value only. -/
theorem eq_of_corners {u : Fin g.nodes → ℝ}
    (hu : ∀ t, u (g.corner t second) = u (g.corner t first) ∧ u (g.corner t third) = u (g.corner t first))
    (k l : Fin g.nodes) : u k = u l := by
  have hup : ∀ i (j : Fin g.ny), u (g.node i j.succ) = u (g.node i j.castSucc) := by
    intro i j
    induction i using Fin.lastCases with
    | cast i =>
      have h := (hu (g.lower i j)).1
      rwa [corner_lower_first, corner_lower_second] at h
    | last =>
      let i : Fin g.nx := ⟨g.nx - 1, Nat.sub_one_lt_of_lt g.nx_pos⟩
      have h := (hu (g.upper i j)).1
      have hi : i.succ = Fin.last g.nx := Fin.ext (Nat.sub_add_cancel g.nx_pos)
      rw [corner_upper_first, corner_upper_second, hi] at h
      exact h.symm
  have halong : ∀ (i : Fin g.nx) j, u (g.node i.succ j) = u (g.node i.castSucc j) := by
    intro i j
    induction j using Fin.lastCases with
    | cast j =>
      have h := (hu (g.lower i j)).2
      rwa [corner_lower_first, corner_lower_third] at h
    | last =>
      let j : Fin g.ny := ⟨g.ny - 1, Nat.sub_one_lt_of_lt g.ny_pos⟩
      have h := (hu (g.upper i j)).2
      have hj : j.succ = Fin.last g.ny := Fin.ext (Nat.sub_add_cancel g.ny_pos)
      rw [corner_upper_first, corner_upper_third, hj] at h
      exact h.symm
  have hcolumn : ∀ i j, u (g.node i j) = u (g.node i 0) := by
    intro i j
    induction j using Fin.induction with
    | zero => rfl
    | succ j ih => rw [hup, ih]
  have hrow : ∀ i, u (g.node i 0) = u (g.node 0 0) := by
    intro i
    induction i using Fin.induction with
    | zero => rfl
    | succ i ih => rw [halong, ih]
  have hnode : ∀ k, u k = u (g.node 0 0) := by
    intro k
    rw [← g.node_column_row k, hcolumn, hrow]
  rw [hnode k, hnode l]

/-- Every node is a corner of a triangle. -/
theorem exists_corner (k : Fin g.nodes) : ∃ t a, g.corner t a = k := by
  by_contra h
  rw [not_exists] at h
  simp only [not_exists] at h
  -- otherwise the field that is one at the node alone would have no differences on any triangle
  let u : Fin g.nodes → ℝ := fun l => if l = k then 1 else 0
  have hzero : ∀ t a, u (g.corner t a) = 0 := fun t a => if_neg (h t a)
  have hone : u k = 1 := if_pos rfl
  let t : Fin g.triangles := g.lower ⟨0, g.nx_pos⟩ ⟨0, g.ny_pos⟩
  have heq : u k = u (g.corner t first) :=
    g.eq_of_corners (fun t => by rw [hzero, hzero, hzero]; exact ⟨rfl, rfl⟩) _ _
  rw [hone, hzero] at heq
  exact one_ne_zero heq

end Magnetofluid.Grid
