import Mathlib
import Magnetofluid.Proofs.Linear.Elimination

/-!
# Positive forms with essential data

A matrix whose form is positive at all fields that vanish on the essential positions.  No symmetry is asked for, so that
matrices with a skew part are among them.

* `Essential.Positive.posDef_eliminate`: the eliminated matrix of a symmetric one is positive definite.
* `Essential.Positive.replaceRows_injective`: with rows of the identity for essential positions the matrix determines
  its argument.
* `Essential.Positive.diagonal_pos`: off the essential positions the diagonal is positive.
* `Essential.Positive.nonpos_of_mulVec_nonpos`: a maximum principle, for matrices with no positive entry off the
  diagonal.
-/

namespace Magnetofluid

open Matrix

variable {n : ℕ}

namespace Essential

/-- The form of a matrix is positive at every field that vanishes on the essential positions, but for the field zero. -/
def Positive (ess : Essential n) (A : Matrix (Fin n) (Fin n) ℝ) : Prop :=
  ∀ z, ess.ZeroOn z → z ≠ 0 → 0 < z ⬝ᵥ A *ᵥ z

variable {ess : Essential n} {A : Matrix (Fin n) (Fin n) ℝ}

theorem zeroOn_single {i : Fin n} (hi : i ∉ ess) : ess.ZeroOn (Pi.single i 1) := by
  intro k hk
  have hki : k ≠ i := fun hki => hi (hki ▸ hk)
  exact Pi.single_eq_of_ne hki 1

theorem Definite.positive (h : ess.Definite A) (hnonneg : ∀ z, 0 ≤ z ⬝ᵥ A *ᵥ z) : ess.Positive A :=
  fun z hzero hz => lt_of_le_of_ne (hnonneg z) fun hform => hz (h z hzero hform.symm)

namespace Positive

theorem definite (h : ess.Positive A) : ess.Definite A := by
  intro z hzero hform
  by_contra hz
  exact (h z hzero hz).ne' hform

theorem diagonal_pos (h : ess.Positive A) {i : Fin n} (hi : i ∉ ess) : 0 < A i i := by
  have hform := h (Pi.single i 1) (zeroOn_single hi) (Pi.single_ne_zero_iff.2 one_ne_zero)
  rwa [single_one_dotProduct, mulVec_single_one] at hform

/-- A matrix may lose what its form does not see, and gain what makes its form larger. -/
theorem mono (h : ess.Positive A) {B : Matrix (Fin n) (Fin n) ℝ} {c : ℝ} (hc : 0 < c)
    (hle : ∀ z, ess.ZeroOn z → c * (z ⬝ᵥ A *ᵥ z) ≤ z ⬝ᵥ B *ᵥ z) : ess.Positive B :=
  fun z hzero hz => (mul_pos hc (h z hzero hz)).trans_le (hle z hzero)

section Maximum

/-- The parts of a field above and below zero meet off the diagonal only. -/
theorem posPart_form_negPart_nonpos (hoff : ∀ i j, i ≠ j → A i j ≤ 0) (x : Fin n → ℝ) : x⁺ ⬝ᵥ A *ᵥ x⁻ ≤ 0 := by
  refine Finset.sum_nonpos fun i _ => ?_
  rw [mulVec_apply_eq_sum, Finset.mul_sum]
  refine Finset.sum_nonpos fun j _ => ?_
  have hi : 0 ≤ x⁺ i := posPart_nonneg x i
  have hj : 0 ≤ x⁻ j := negPart_nonneg x j
  by_cases hij : i = j
  · subst hij
    rcases le_total (x i) 0 with h | h
    · have hpart : x⁺ i = 0 := posPart_eq_zero.2 h
      rw [hpart, zero_mul]
    · have hpart : x⁻ i = 0 := negPart_eq_zero.2 h
      rw [hpart, mul_zero, mul_zero]
  · exact mul_nonpos_of_nonneg_of_nonpos hi (mul_nonpos_of_nonpos_of_nonneg (hoff i j hij) hj)

/-- Without positive entries off the diagonal, a field is nowhere positive if its image is not. -/
theorem nonpos_of_mulVec_nonpos (h : ess.Positive A) (hoff : ∀ i j, i ≠ j → A i j ≤ 0) {x : Fin n → ℝ}
    (hzero : ess.ZeroOn x) (hx : ∀ i ∉ ess, (A *ᵥ x) i ≤ 0) : x ≤ 0 := by
  have hpart : ess.ZeroOn x⁺ := fun i hi => (Pi.posPart_apply x i).trans (posPart_eq_zero.2 (hzero i hi).le)
  have himage : x⁺ ⬝ᵥ A *ᵥ x ≤ 0 := by
    refine Finset.sum_nonpos fun i _ => ?_
    by_cases hi : i ∈ ess
    · rw [hpart i hi, zero_mul]
    · exact mul_nonpos_of_nonneg_of_nonpos (posPart_nonneg x i) (hx i hi)
  have hform : x⁺ ⬝ᵥ A *ᵥ x⁺ ≤ 0 := by
    calc x⁺ ⬝ᵥ A *ᵥ x⁺ = x⁺ ⬝ᵥ A *ᵥ (x + x⁻) := by rw [← sub_eq_iff_eq_add.1 (posPart_sub_negPart x)]
      _ = x⁺ ⬝ᵥ A *ᵥ x + x⁺ ⬝ᵥ A *ᵥ x⁻ := by rw [mulVec_add, dotProduct_add]
      _ ≤ 0 := add_nonpos himage (posPart_form_negPart_nonpos hoff x)
  by_contra hpos
  exact hform.not_gt (h _ hpart fun hnull => hpos (posPart_eq_zero.1 hnull))

end Maximum

section Eliminate

variable {A : Sparse ℝ n n}

theorem eliminate (h : ess.Positive A.toMatrix) : ess.Positive (A.eliminate ess).toMatrix := by
  intro z hzero hz
  rw [Sparse.eliminate_form, hzero.inner_eq, sub_self, zero_dotProduct, add_zero]
  exact h z hzero hz

/-- The form of the eliminated matrix is positive at every field, as the essential values meet the identity. -/
theorem eliminate_form_pos (h : ess.Positive A.toMatrix) {x : Fin n → ℝ} (hx : x ≠ 0) :
    0 < x ⬝ᵥ (A.eliminate ess).toMatrix *ᵥ x := by
  rw [Sparse.eliminate_form]
  have hsquares : ∀ v : Fin n → ℝ, 0 ≤ v ⬝ᵥ v := fun v => dotProduct_self_star_nonneg v
  by_cases hinner : ess.inner x = 0
  · rw [hinner, zero_dotProduct, zero_add, sub_zero]
    exact dotProduct_self_star_pos_iff.2 hx
  · exact add_pos_of_pos_of_nonneg (h _ (zeroOn_inner ess x) hinner) (hsquares _)

theorem posDef_eliminate (h : ess.Positive A.toMatrix) (hsymm : A.toMatrix.IsSymm) :
    (A.eliminate ess).toMatrix.PosDef := by
  have hsymm' : (A.eliminate ess).toMatrix.IsSymm := Sparse.isSymm_eliminate hsymm ess
  refine PosDef.of_dotProduct_mulVec_pos (isHermitian_iff_isSymm.2 hsymm') fun x hx => ?_
  rw [star_trivial]
  exact h.eliminate_form_pos hx

end Eliminate

section ReplaceRows

variable {A : Sparse ℝ n n}

theorem replaceRows_injective (h : ess.Positive A.toMatrix) {diag : ℝ} (hdiag : diag ≠ 0) :
    Function.Injective ((A.replaceRows ess diag).toMatrix *ᵥ ·) := by
  refine Sparse.injective_of_mulVec_eq_zero fun v hv => ?_
  have hzero : ess.ZeroOn v.values := by
    intro i hi
    have hrow := congrFun hv i
    rw [Sparse.replaceRows_mulVec_of_mem _ _ _ _ hi] at hrow
    exact (mul_eq_zero.1 hrow).resolve_left hdiag
  have hinner : ∀ i ∉ ess, (A.toMatrix *ᵥ v.values) i = (0 : Fin n → ℝ) i := by
    intro i hi
    have hrow := congrFun hv i
    rwa [Sparse.replaceRows_mulVec_of_not_mem _ _ _ _ hi, Sparse.values_mulVec] at hrow
  refine h.definite v.values hzero ?_
  rw [hzero.dotProduct_congr hinner, dotProduct_zero]

theorem isUnit_replaceRows (h : ess.Positive A.toMatrix) {diag : ℝ} (hdiag : diag ≠ 0) :
    IsUnit (A.replaceRows ess diag).toMatrix :=
  mulVec_injective_iff_isUnit.1 (h.replaceRows_injective hdiag)

theorem replaceRows_diagonal_pos (h : ess.Positive A.toMatrix) {diag : ℝ} (hdiag : 0 < diag) (i : Fin n) :
    0 < (A.replaceRows ess diag).toMatrix i i := by
  rw [Sparse.toMatrix_replaceRows, if_pos rfl]
  by_cases hi : i ∈ ess
  · rwa [if_pos hi]
  · rw [if_neg hi]
    exact h.diagonal_pos hi

end ReplaceRows

end Positive

end Essential

end Magnetofluid
