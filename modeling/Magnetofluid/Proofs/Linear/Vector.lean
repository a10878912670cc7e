import Mathlib
import Magnetofluid.Proofs.Exact.Arithmetic

/-!
# Vectors over the reals

The view of a vector as a function of its positions, `Vec.values`, with one lemma for each operation, and the inner
product and the norm as those of the view.
-/

namespace Magnetofluid.Vec

open Matrix

variable {n : ℕ}

theorem ofArray?_toArray {α : Type} (x : Vector α n) : ofArray? n x.toArray = some x := dif_pos x.size_toArray

theorem get_put {α : Type} (x : Vector α n) (i j : Fin n) (a : α) :
    (put x i a).get j = if i = j then a else x.get j := by
  unfold put
  rw [get_eq_getElem, get_eq_getElem, Vector.getElem_set]
  simp only [Fin.ext_iff]

def values (x : Vec ℝ n) : Fin n → ℝ := x.get

theorem values_apply (x : Vec ℝ n) (i : Fin n) : x.values i = getElem x i.val i.isLt := rfl

theorem values_injective : Function.Injective (values (n := n)) := by
  intro x y h
  ext i hi
  exact congrFun h ⟨i, hi⟩

@[simp] theorem values_ofFn (f : Fin n → ℝ) : values (.ofFn f) = f := by
  funext i
  simp [values_apply]

theorem values_surjective : Function.Surjective (values (n := n)) := fun f => ⟨.ofFn f, values_ofFn f⟩

@[simp] theorem values_zeros : (zeros n : Vec ℝ n).values = 0 := by
  funext i
  simp [values_apply]

@[simp] theorem values_fill (c : ℝ) : (fill n c : Vec ℝ n).values = fun _ => c := by
  funext i
  simp [values_apply, fill]

@[simp] theorem values_add (x y : Vec ℝ n) : (x + y).values = x.values + y.values := by
  funext i
  simp [values_apply]

@[simp] theorem values_sub (x y : Vec ℝ n) : (x - y).values = x.values - y.values := by
  funext i
  simp [values_apply]

@[simp] theorem values_neg (x : Vec ℝ n) : (-x).values = -x.values := by
  funext i
  simp [values_apply]

@[simp] theorem values_scale (c : ℝ) (x : Vec ℝ n) : (scale c x).values = c • x.values := by
  funext i
  simp [values_apply]

@[simp] theorem values_addScaled (y : Vec ℝ n) (c : ℝ) (x : Vec ℝ n) :
    (addScaled y c x).values = y.values + c • x.values := by
  funext i
  simp [values_apply]

@[simp] theorem values_subScaled (y : Vec ℝ n) (c : ℝ) (x : Vec ℝ n) :
    (subScaled y c x).values = y.values - c • x.values := by
  funext i
  simp [values_apply]

/-! ### Inner product and norm -/

theorem dot_eq (x y : Vec ℝ n) : dot x y = x.values ⬝ᵥ y.values :=
  sumFin_eq_sum n _

theorem norm_zeros : norm (zeros n : Vec ℝ n) = 0 := by
  unfold norm
  rw [dot_eq, values_zeros, zero_dotProduct, Scalar.sqrt_real, Real.sqrt_zero]

theorem eq_zeros_of_norm_eq_zero {x : Vec ℝ n} (h : norm x = 0) : x = zeros n := by
  have hnonneg : 0 ≤ x.values ⬝ᵥ x.values := dotProduct_self_star_nonneg x.values
  unfold norm at h
  rw [Scalar.sqrt_real, dot_eq, Real.sqrt_eq_zero hnonneg, dotProduct_self_eq_zero] at h
  apply values_injective
  rw [h, values_zeros]

end Magnetofluid.Vec
