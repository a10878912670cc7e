import Mathlib
import Magnetofluid.Form.Load
import Magnetofluid.Proofs.Form.Bilinear

/-!
# Load vectors over the reals

A load vector is filled triangle by triangle.  Against a field it is a sum over the triangles, of the values at the
quadrature points with the values of the field there.

* `Form.dotProduct_loadOf`: a load vector against a field.
* `Form.loadOf_interpolated`: the load of values that a nodal field has at the quadrature points is the mass matrix
  times that field.
* `Form.sum_loadOf`: the entries of a load vector add up to what the rule gives on each triangle.
-/

namespace Magnetofluid

open Matrix Grid

/-- A vector that is filled step by step, against a field to which each step adds a number. -/
theorem Vec.dotProduct_foldl {α : Type} {n : ℕ} {x : Fin n → ℝ} {step : Vec ℝ n → α → Vec ℝ n} {c : α → ℝ}
    (h : ∀ b a, x ⬝ᵥ (step b a).values = x ⬝ᵥ b.values + c a) (l : List α) (b : Vec ℝ n) :
    x ⬝ᵥ (l.foldl step b).values = x ⬝ᵥ b.values + (l.map c).sum := by
  induction l generalizing b with
  | nil => exact (add_zero _).symm
  | cons a l ih => rw [List.foldl_cons, ih, h, List.map_cons, List.sum_cons, add_assoc]

theorem Vec.dotProduct_put_add {n : ℕ} (x : Fin n → ℝ) (b : Vec ℝ n) (k : Fin n) (v : ℝ) :
    x ⬝ᵥ values (put b k (b.get k + v)) = x ⬝ᵥ b.values + x k * v := by
  have hput : values (put b k (b.get k + v)) = b.values + Pi.single k v := by
    funext j
    show (put b k (b.get k + v)).get j = b.get j + (Pi.single k v : Fin n → ℝ) j
    rw [get_put]
    by_cases hj : k = j
    · subst hj
      rw [if_pos rfl, Pi.single_eq_same]
    · rw [if_neg hj, Pi.single_eq_of_ne (Ne.symm hj), add_zero]
  rw [hput, dotProduct_add, dotProduct_single]

namespace Form

variable {m : Mesh ℝ}

theorem barycentric_real (q b : Fin 3) : (barycentric q b : ℝ) = if q = b then 2 / 3 else 1 / 6 := by
  unfold barycentric
  norm_num

theorem weight_real : (weight : ℝ) = 1 / 3 := by
  unfold weight
  norm_num

/-- The basis functions of a triangle have the sum one. -/
theorem sum_barycentric (q : Fin 3) : ∑ b, (barycentric q b : ℝ) = 1 := by
  simp only [barycentric_real]
  fin_cases q <;> simp [Fin.sum_univ_three] <;> norm_num

theorem dotProduct_loadOf (values : Fin m.triangles → Fin 3 → ℝ) (x : Fin m.nodes → ℝ) :
    x ⬝ᵥ (loadOf m values).values = ∑ t, (m.element t).area / 3 *
      ∑ q, values t q * ∑ a, barycentric q a * x (m.corner t a) := by
  unfold loadOf
  refine (Vec.dotProduct_foldl (c := fun t => (m.element t).area / 3 *
    ∑ q, values t q * ∑ a, barycentric q a * x (m.corner t a)) (fun b t => ?_) _ _).trans ?_
  · simp only [Vec.dotProduct_put_add, weight_real, Fin.sum_univ_three, first, second, third]
    ring
  · rw [Vec.values_zeros, dotProduct_zero, zero_add]
    unfold cells
    rw [← List.ofFn_eq_map, List.sum_ofFn]

/-- The load of values that interpolate a nodal field is the mass matrix times that field. -/
theorem loadOf_interpolated {values : Fin m.triangles → Fin 3 → ℝ} {u : Vec ℝ m.nodes}
    (h : ∀ t q, values t q = ∑ b, barycentric q b * u.values (m.corner t b)) :
    loadOf m values = (mass m).mulVec u := by
  apply Vec.values_injective
  refine dotProduct_eq _ _ fun x => ?_
  rw [dotProduct_comm, dotProduct_comm _ x, dotProduct_loadOf, Sparse.values_mulVec, mass_form]
  refine Finset.sum_congr rfl fun t _ => ?_
  simp only [h, cornerSum, Fin.sum_univ_three, barycentric_real, Fin.reduceEq, if_true, if_false]
  ring

theorem sum_loadOf (values : Fin m.triangles → Fin 3 → ℝ) :
    ∑ i, (loadOf m values).values i = ∑ t, (m.element t).area * (weight * ∑ q, values t q) := by
  have h := dotProduct_loadOf values (fun _ => 1)
  simp only [mul_one, sum_barycentric] at h
  calc ∑ i, (loadOf m values).values i = (fun _ => 1) ⬝ᵥ (loadOf m values).values := by
        simp only [dotProduct, one_mul]
    _ = ∑ t, (m.element t).area * (weight * ∑ q, values t q) := by
        rw [h, weight_real]
        exact Finset.sum_congr rfl fun t _ => by ring

end Form

end Magnetofluid
