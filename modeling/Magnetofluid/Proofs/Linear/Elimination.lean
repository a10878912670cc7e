import Mathlib
import Magnetofluid.Linear.Elimination
import Magnetofluid.Proofs.Linear.Sparse

/-!
# Elimination of essential data over the reals

What an eliminated system says of its solution, row by row.

* `Sparse.eliminate_mulVec_eq_rhs_iff`: the solution has the prescribed values and obeys the other rows of the
  system that was given, with no row or column eliminated.
* `Sparse.replaceRows_mulVec_of_mem`, `Sparse.replaceRows_mulVec_of_not_mem`: the rows of a matrix some of whose rows
  were replaced.
* `Essential.Definite`: no field that vanishes on the essential positions has energy zero, other than zero.  Then the
  eliminated matrix determines its argument (`Definite.eliminate_injective`), and its inner rows determine the inner
  part of it (`Definite.eliminate_inner_eq_zero_iff`).
-/

namespace Magnetofluid

open Matrix

variable {n : ℕ}

namespace Essential

def inner (ess : Essential n) (x : Fin n → ℝ) : Fin n → ℝ := fun i => if i ∈ ess then 0 else x i

def ZeroOn (ess : Essential n) (x : Fin n → ℝ) : Prop := ∀ i ∈ ess, x i = 0

variable {ess : Essential n} {x : Fin n → ℝ}

theorem inner_of_mem {i : Fin n} (h : i ∈ ess) : ess.inner x i = 0 := if_pos h

theorem inner_of_not_mem {i : Fin n} (h : i ∉ ess) : ess.inner x i = x i := if_neg h

theorem zeroOn_inner (ess : Essential n) (x : Fin n → ℝ) : ess.ZeroOn (ess.inner x) :=
  fun _ h => inner_of_mem h

theorem inner_eq_zero_iff : ess.inner x = 0 ↔ ∀ i ∉ ess, x i = 0 := by
  constructor
  · intro h i hi
    rw [← inner_of_not_mem (x := x) hi, h]
    rfl
  · intro h
    funext i
    by_cases hi : i ∈ ess
    · exact inner_of_mem hi
    · exact (inner_of_not_mem hi).trans (h i hi)

theorem inner_eq_self (h : ∀ i, i ∉ ess) (x : Fin n → ℝ) : ess.inner x = x :=
  funext fun i => inner_of_not_mem (h i)

@[simp] theorem inner_zero (ess : Essential n) : ess.inner 0 = 0 := inner_eq_zero_iff.2 fun _ _ => rfl

theorem inner_sub_inner (x y : Fin n → ℝ) : ess.inner (x - ess.inner y) = ess.inner (x - y) := by
  funext i
  by_cases hi : i ∈ ess
  · rw [inner_of_mem hi, inner_of_mem hi]
  · rw [inner_of_not_mem hi, inner_of_not_mem hi, Pi.sub_apply, Pi.sub_apply, inner_of_not_mem hi]

theorem ZeroOn.inner_eq (h : ess.ZeroOn x) : ess.inner x = x := by
  funext i
  by_cases hi : i ∈ ess
  · rw [inner_of_mem hi, h i hi]
  · exact inner_of_not_mem hi

theorem ZeroOn.sub {y : Fin n → ℝ} (hx : ess.ZeroOn x) (hy : ess.ZeroOn y) : ess.ZeroOn (x - y) := by
  intro i hi
  rw [Pi.sub_apply, hx i hi, hy i hi, sub_zero]

theorem ZeroOn.smul (hx : ess.ZeroOn x) (c : ℝ) : ess.ZeroOn (c • x) := by
  intro i hi
  rw [Pi.smul_apply, hx i hi, smul_zero]

/-- Against a field that vanishes on the essential positions only the other entries count. -/
theorem ZeroOn.dotProduct_congr {a b : Fin n → ℝ} (h : ess.ZeroOn x) (hab : ∀ i ∉ ess, a i = b i) :
    x ⬝ᵥ a = x ⬝ᵥ b := by
  refine Finset.sum_congr rfl fun i _ => ?_
  by_cases hi : i ∈ ess
  · rw [h i hi, zero_mul, zero_mul]
  · rw [hab i hi]

/-- A matrix whose form vanishes at no field that is zero on the essential positions, but for the field zero. -/
def Definite (ess : Essential n) (A : Matrix (Fin n) (Fin n) ℝ) : Prop :=
  ∀ z, ess.ZeroOn z → z ⬝ᵥ A *ᵥ z = 0 → z = 0

end Essential

namespace Vec

@[simp] theorem values_zeroOn (ess : Essential n) (x : Vec ℝ n) : (zeroOn ess x).values = ess.inner x.values :=
  values_ofFn _

theorem values_overwriteOn (ess : Essential n) (data x : Vec ℝ n) (i : Fin n) :
    (overwriteOn ess data x).values i = if i ∈ ess then data.values i else x.values i := by
  unfold overwriteOn
  rw [values_ofFn]
  rfl

theorem values_restrictTo (ess : Essential n) (x : Vec ℝ n) :
    (restrictTo ess x).values = x.values - ess.inner x.values := by
  unfold restrictTo
  rw [values_ofFn]
  funext i
  by_cases hi : i ∈ ess
  · rw [if_pos hi, Pi.sub_apply, Essential.inner_of_mem hi, sub_zero]
    rfl
  · rw [if_neg hi, Pi.sub_apply, Essential.inner_of_not_mem hi, sub_self]

end Vec

namespace SparseRow

theorem entry_filter_not_contains (ess : Essential n) (row : SparseRow ℝ n) (j : Fin n) :
    SparseRow.entry (row.filter fun p => !ess.contains p.1) j = if j ∈ ess then 0 else row.entry j := by
  induction row with
  | nil => simp
  | cons p row ih =>
    by_cases hp : p.1 ∈ ess
    · have hj : j ∉ ess → p.1 ≠ j := fun hj h => hj (h ▸ hp)
      rw [List.filter_cons_of_neg (by rw [show ess.contains p.1 = true from hp]; decide), ih, entry_cons]
      split_ifs with h1 h2
      · rfl
      · exact absurd h2 (hj h1)
      · rw [zero_add]
    · have hj : j ∈ ess → p.1 ≠ j := fun hj h => hp (h ▸ hj)
      have hp' : ess.contains p.1 = false := Bool.eq_false_iff.2 hp
      rw [List.filter_cons_of_pos (by rw [hp']; rfl), entry_cons, entry_cons, ih]
      split_ifs with h1 h2
      · exact absurd h1 (hj h2)
      · rfl
      · rw [zero_add]
      · rfl

end SparseRow

namespace Sparse

section Eliminate

variable (A : Sparse ℝ n n) (ess : Essential n)

theorem toMatrix_eliminate (i j : Fin n) :
    (A.eliminate ess).toMatrix i j =
      if i ∈ ess then (if i = j then 1 else 0) else if j ∈ ess then 0 else A.toMatrix i j := by
  rw [toMatrix_apply]
  unfold eliminate
  rw [Vec.get_eq_getElem, Vector.getElem_ofFn]
  by_cases hi : i ∈ ess
  · simp [hi]
  · simp only [hi, if_false]
    rw [SparseRow.entry_dropZeros, SparseRow.entry_filter_not_contains]
    rfl

theorem isSymm_eliminate {A : Sparse ℝ n n} (h : A.toMatrix.IsSymm) (ess : Essential n) :
    (A.eliminate ess).toMatrix.IsSymm := by
  refine IsSymm.ext fun i j => ?_
  rw [toMatrix_eliminate, toMatrix_eliminate, h.apply i j]
  by_cases hij : i = j
  · rw [hij]
  · rw [if_neg hij, if_neg (Ne.symm hij)]
    by_cases hi : i ∈ ess
    · rw [if_pos hi, if_pos hi, ite_self]
    · rw [if_neg hi, if_neg hi]

/-- An essential row of the eliminated matrix is the row of the identity. -/
theorem eliminate_mulVec_of_mem (x : Fin n → ℝ) {i : Fin n} (hi : i ∈ ess) :
    ((A.eliminate ess).toMatrix *ᵥ x) i = x i := by
  rw [mulVec_apply_eq_sum]
  simp [toMatrix_eliminate, hi]

/-- Any other row of the eliminated matrix is the given one, applied to the field without its essential values. -/
theorem eliminate_mulVec_of_not_mem (x : Fin n → ℝ) {i : Fin n} (hi : i ∉ ess) :
    ((A.eliminate ess).toMatrix *ᵥ x) i = (A.toMatrix *ᵥ ess.inner x) i := by
  rw [mulVec_apply_eq_sum, mulVec_apply_eq_sum]
  refine Finset.sum_congr rfl fun j _ => ?_
  rw [toMatrix_eliminate, if_neg hi]
  by_cases hj : j ∈ ess
  · rw [if_pos hj, Essential.inner_of_mem hj, zero_mul, mul_zero]
  · rw [if_neg hj, Essential.inner_of_not_mem hj]

/-- The form of the eliminated matrix is that of the given one without the essential values, which it meets by
themselves. -/
theorem eliminate_form (x y : Fin n → ℝ) :
    x ⬝ᵥ (A.eliminate ess).toMatrix *ᵥ y =
      ess.inner x ⬝ᵥ A.toMatrix *ᵥ ess.inner y + (x - ess.inner x) ⬝ᵥ (y - ess.inner y) := by
  refine Eq.trans (Finset.sum_congr rfl fun i _ => ?_) Finset.sum_add_distrib
  by_cases hi : i ∈ ess
  · rw [eliminate_mulVec_of_mem A ess y hi, Pi.sub_apply, Pi.sub_apply, Essential.inner_of_mem hi,
      Essential.inner_of_mem hi]
    ring
  · rw [eliminate_mulVec_of_not_mem A ess y hi, Pi.sub_apply, Pi.sub_apply, Essential.inner_of_not_mem hi,
      Essential.inner_of_not_mem hi]
    ring

theorem eliminate_mulVec_of_zeroOn {x : Fin n → ℝ} (hx : ess.ZeroOn x) {i : Fin n} (hi : i ∉ ess) :
    ((A.eliminate ess).toMatrix *ᵥ x) i = (A.toMatrix *ᵥ x) i := by
  rw [eliminate_mulVec_of_not_mem A ess x hi, hx.inner_eq]

/-- A row in which an eliminated system holds for a field that vanishes on the essential nodes holds before it is
eliminated. -/
theorem row_of_inner_eliminate_eq_zero {x b : Fin n → ℝ} (hx : ess.ZeroOn x)
    (h : ess.inner ((A.eliminate ess).toMatrix *ᵥ x - b) = 0) {i : Fin n} (hi : i ∉ ess) :
    (A.toMatrix *ᵥ x) i = b i := by
  rw [← eliminate_mulVec_of_zeroOn A ess hx hi]
  exact sub_eq_zero.1 (Essential.inner_eq_zero_iff.1 h i hi)

/-- The solutions of an eliminated system whose prescribed values are zero. -/
theorem eliminate_mulVec_eq_zeroOn_iff (x b : Vec ℝ n) :
    (A.eliminate ess).mulVec x = Vec.zeroOn ess b ↔
      ess.ZeroOn x.values ∧ ∀ i ∉ ess, (A.toMatrix *ᵥ x.values) i = b.values i := by
  rw [← Vec.values_injective.eq_iff, values_mulVec, Vec.values_zeroOn, funext_iff]
  constructor
  · intro h
    have hzero : ess.ZeroOn x.values := by
      intro i hi
      rw [← eliminate_mulVec_of_mem A ess x.values hi, h i, Essential.inner_of_mem hi]
    refine ⟨hzero, fun i hi => ?_⟩
    rw [← eliminate_mulVec_of_zeroOn A ess hzero hi, h i, Essential.inner_of_not_mem hi]
  · rintro ⟨hzero, hrow⟩ i
    by_cases hi : i ∈ ess
    · rw [eliminate_mulVec_of_mem A ess _ hi, Essential.inner_of_mem hi, hzero i hi]
    · rw [eliminate_mulVec_of_zeroOn A ess hzero hi, Essential.inner_of_not_mem hi, hrow i hi]

/-- The solutions of an eliminated system. -/
theorem eliminate_mulVec_eq_rhs_iff (x data b : Vec ℝ n) :
    (A.eliminate ess).mulVec x = A.eliminateRhs ess data b ↔
      (∀ i ∈ ess, x.values i = data.values i) ∧ ∀ i ∉ ess, (A.toMatrix *ᵥ x.values) i = b.values i := by
  -- off the essential positions both sides lack the part of the row that meets the prescribed values
  have hrow : ∀ i ∉ ess, (∀ i ∈ ess, x.values i = data.values i) →
      (((A.eliminate ess).toMatrix *ᵥ x.values) i = (A.eliminateRhs ess data b).values i ↔
        (A.toMatrix *ᵥ x.values) i = b.values i) := by
    intro i hi hdata
    have hx : x.values - ess.inner x.values = data.values - ess.inner data.values := by
      funext k
      by_cases hk : k ∈ ess
      · rw [Pi.sub_apply, Pi.sub_apply, Essential.inner_of_mem hk, Essential.inner_of_mem hk, hdata k hk]
      · rw [Pi.sub_apply, Pi.sub_apply, Essential.inner_of_not_mem hk, Essential.inner_of_not_mem hk, sub_self,
          sub_self]
    unfold eliminateRhs
    rw [eliminate_mulVec_of_not_mem A ess _ hi, Vec.values_overwriteOn, if_neg hi, Vec.values_sub, Pi.sub_apply,
      values_mulVec, Vec.values_restrictTo, ← hx, Matrix.mulVec_sub, Pi.sub_apply]
    constructor
    · intro h; linarith
    · intro h; linarith
  have hess : ∀ i ∈ ess, (((A.eliminate ess).toMatrix *ᵥ x.values) i = (A.eliminateRhs ess data b).values i ↔
      x.values i = data.values i) := by
    intro i hi
    unfold eliminateRhs
    rw [eliminate_mulVec_of_mem A ess _ hi, Vec.values_overwriteOn, if_pos hi]
  rw [← Vec.values_injective.eq_iff, values_mulVec, funext_iff]
  constructor
  · intro h
    have hdata : ∀ i ∈ ess, x.values i = data.values i := fun i hi => (hess i hi).1 (h i)
    exact ⟨hdata, fun i hi => (hrow i hi hdata).1 (h i)⟩
  · rintro ⟨hdata, hinner⟩ i
    by_cases hi : i ∈ ess
    · exact (hess i hi).2 (hdata i hi)
    · exact (hrow i hi hdata).2 (hinner i hi)

end Eliminate

/-! ### Replaced rows -/

section ReplaceRows

variable (A : Sparse ℝ n n) (marked : Essential n) (diag : ℝ) (x : Vec ℝ n) {i : Fin n}

theorem get_rows_replaceRows :
    (A.replaceRows marked diag).rows.get i =
      if i ∈ marked then SparseRow.dropZeros [(i, diag * 1)]
      else SparseRow.add (SparseRow.dropZeros (A.rows.get i)) (SparseRow.dropZeros [(i, diag * 0)]) := by
  unfold replaceRows
  rw [Vec.get_eq_getElem, Vector.getElem_ofFn]

omit x in
theorem toMatrix_replaceRows (j : Fin n) :
    (A.replaceRows marked diag).toMatrix i j =
      if i ∈ marked then (if i = j then diag else 0) else A.toMatrix i j := by
  rw [toMatrix_apply, get_rows_replaceRows]
  by_cases hi : i ∈ marked
  · rw [if_pos hi, if_pos hi, SparseRow.entry_dropZeros, SparseRow.entry_cons, SparseRow.entry_nil, add_zero, mul_one]
  · rw [if_neg hi, if_neg hi, SparseRow.entry_add, SparseRow.entry_dropZeros, SparseRow.entry_dropZeros,
      SparseRow.entry_cons, SparseRow.entry_nil, mul_zero, ite_self, add_zero, add_zero]
    rfl

theorem replaceRows_mulVec_of_mem (hi : i ∈ marked) :
    ((A.replaceRows marked diag).mulVec x).values i = diag * x.values i := by
  refine (get_mulVec _ x i).trans ?_
  rw [get_rows_replaceRows, if_pos hi, SparseRow.dot_dropZeros, SparseRow.dot_singleton, mul_one]

theorem replaceRows_mulVec_of_not_mem (hi : i ∉ marked) :
    ((A.replaceRows marked diag).mulVec x).values i = (A.mulVec x).values i := by
  refine (get_mulVec _ x i).trans (Eq.trans ?_ (get_mulVec A x i).symm)
  rw [get_rows_replaceRows, if_neg hi, SparseRow.dot_add, SparseRow.dot_dropZeros, SparseRow.dot_dropZeros,
    SparseRow.dot_singleton, mul_zero, zero_mul, add_zero]

end ReplaceRows

end Sparse

namespace Essential.Definite

variable {ess : Essential n} {A : Sparse ℝ n n}

/-- The inner rows of the eliminated matrix vanish at fields without inner part only. -/
theorem eliminate_inner_eq_zero_iff (h : ess.Definite A.toMatrix) {x : Fin n → ℝ} :
    ess.inner ((A.eliminate ess).toMatrix *ᵥ x) = 0 ↔ ∀ i ∉ ess, x i = 0 := by
  rw [inner_eq_zero_iff]
  constructor
  · intro hx i hi
    have hrow : ∀ k ∉ ess, (A.toMatrix *ᵥ ess.inner x) k = (0 : Fin n → ℝ) k := by
      intro k hk
      rw [← Sparse.eliminate_mulVec_of_not_mem A ess x hk]
      exact hx k hk
    have hform : ess.inner x ⬝ᵥ A.toMatrix *ᵥ ess.inner x = 0 := by
      rw [(zeroOn_inner ess x).dotProduct_congr hrow, dotProduct_zero]
    rw [← inner_of_not_mem (x := x) hi, h _ (zeroOn_inner ess x) hform]
    rfl
  · intro hx i hi
    rw [Sparse.eliminate_mulVec_of_not_mem A ess x hi, inner_eq_zero_iff.2 hx, mulVec_zero]
    rfl

theorem eliminate_injective (h : ess.Definite A.toMatrix) : Function.Injective ((A.eliminate ess).toMatrix *ᵥ ·) := by
  intro x y hxy
  have hsub : (A.eliminate ess).toMatrix *ᵥ (x - y) = 0 := by
    rw [Matrix.mulVec_sub]
    exact sub_eq_zero.2 hxy
  have hinner := h.eliminate_inner_eq_zero_iff.1 (inner_eq_zero_iff.2 fun i _ => congrFun hsub i)
  funext i
  by_cases hi : i ∈ ess
  · have hrow := congrFun hsub i
    rw [Sparse.eliminate_mulVec_of_mem A ess _ hi] at hrow
    exact sub_eq_zero.1 hrow
  · exact sub_eq_zero.1 (hinner i hi)

end Essential.Definite

end Magnetofluid
