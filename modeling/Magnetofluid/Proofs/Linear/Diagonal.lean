import Mathlib
import Magnetofluid.Proofs.Krylov.Preconditioner
import Magnetofluid.Proofs.Linear.Positive

/-!
# Matrices against their diagonals

The form of a matrix may be bounded, from both sides, by multiples of the form of its diagonal.  Then division by the
diagonal makes a good preconditioner: it leaves an operator that stretches all fields about equally, in the lengths that
belong to the diagonal.

* `Sparse.WithinDiagonal.eliminate`: bounds on both sides of one are kept when essential positions are eliminated.
* `Sparse.WithinDiagonal.conditionAtMost`: the condition number after division by the diagonal.
* `Sparse.WithinDiagonal.eigenvalue_mem`: the eigenvalues then.
-/

namespace Magnetofluid

open Matrix

variable {n : ℕ}

/-- In lengths given by `size`, a map stretches all fields, and none of them more than `κ` times as much as another. -/
def ConditionAtMost (size : Vec ℝ n → ℝ) (f : Vec ℝ n → Vec ℝ n) (κ : ℝ) : Prop :=
  ∃ least > 0, ∀ x, least * size x ≤ size (f x) ∧ size (f x) ≤ κ * least * size x

namespace Sparse

noncomputable def diagonalForm (A : Sparse ℝ n n) (x y : Fin n → ℝ) : ℝ := ∑ i, A.entry i i * (x i * y i)

/-- The length of a field in the form of the diagonal of a matrix. -/
noncomputable def diagonalNorm (A : Sparse ℝ n n) (x : Vec ℝ n) : ℝ :=
  √(Vec.dot x ((ofDiagonal A.diagonal).mulVec x))

/-- The form of a matrix lies between two multiples of the form of its diagonal. -/
def WithinDiagonal (A : Sparse ℝ n n) (c C : ℝ) : Prop :=
  ∀ x, c * A.diagonalForm x x ≤ x ⬝ᵥ A.toMatrix *ᵥ x ∧ x ⬝ᵥ A.toMatrix *ᵥ x ≤ C * A.diagonalForm x x

section DiagonalForm

variable (A : Sparse ℝ n n) (x y : Fin n → ℝ)

theorem diagonalForm_eq : A.diagonalForm x y = x ⬝ᵥ Matrix.diagonal (fun i => A.entry i i) *ᵥ y := by
  refine Finset.sum_congr rfl fun i _ => ?_
  rw [mulVec_diagonal]
  ring

theorem dot_ofDiagonal_mulVec (u v : Vec ℝ n) :
    Vec.dot u ((ofDiagonal A.diagonal).mulVec v) = A.diagonalForm u.values v.values := by
  rw [Vec.dot_eq]
  refine Finset.sum_congr rfl fun i _ => ?_
  have hrow : ((ofDiagonal A.diagonal).mulVec v).values i = A.entry i i * v.values i := by
    refine (get_mulVec _ v i).trans ?_
    simp [ofDiagonal, diagonal, SparseRow.dot_singleton]
  rw [hrow]
  ring

theorem eliminate_diagonalForm (ess : Essential n) : (A.eliminate ess).diagonalForm x x =
    A.diagonalForm (ess.inner x) (ess.inner x) + (x - ess.inner x) ⬝ᵥ (x - ess.inner x) := by
  refine Eq.trans (Finset.sum_congr rfl fun i _ => ?_) Finset.sum_add_distrib
  have hentry : (A.eliminate ess).entry i i = if i ∈ ess then 1 else A.entry i i := by
    refine (toMatrix_eliminate A ess i i).trans ?_
    by_cases hi : i ∈ ess
    · rw [if_pos hi, if_pos hi, if_pos rfl]
    · rw [if_neg hi, if_neg hi, if_neg hi]
      rfl
  rw [hentry, Pi.sub_apply]
  by_cases hi : i ∈ ess
  · rw [if_pos hi, Essential.inner_of_mem hi]
    ring
  · rw [if_neg hi, Essential.inner_of_not_mem hi]
    ring

variable {A x} (h : ∀ i, 0 < A.entry i i)
include h

theorem diagonalForm_nonneg (x : Fin n → ℝ) : 0 ≤ A.diagonalForm x x :=
  Finset.sum_nonneg fun i _ => mul_nonneg (h i).le (mul_self_nonneg (x i))

theorem diagonalForm_pos (hx : x ≠ 0) : 0 < A.diagonalForm x x := by
  obtain ⟨i, hi⟩ := Function.ne_iff.1 hx
  refine Finset.sum_pos' (fun i _ => mul_nonneg (h i).le (mul_self_nonneg (x i))) ⟨i, Finset.mem_univ i, ?_⟩
  exact mul_pos (h i) (mul_self_pos.2 hi)

end DiagonalForm

theorem WithinDiagonal.eliminate {A : Sparse ℝ n n} {c C : ℝ} (h : A.WithinDiagonal c C) (hc : c ≤ 1) (hC : 1 ≤ C)
    (ess : Essential n) : (A.eliminate ess).WithinDiagonal c C := by
  intro x
  obtain ⟨hlower, hupper⟩ := h (ess.inner x)
  have hsquare : 0 ≤ (x - ess.inner x) ⬝ᵥ (x - ess.inner x) := dotProduct_self_star_nonneg _
  rw [eliminate_diagonalForm, eliminate_form]
  constructor
  · linarith [mul_le_of_le_one_left hsquare hc]
  · linarith [le_mul_of_one_le_left hsquare hC]

end Sparse

/-! ### Division by the diagonal -/

/-- The inequality of Cauchy and Schwarz for a form that need not be definite. -/
theorem form_sq_le {A : Matrix (Fin n) (Fin n) ℝ} (hsymm : A.IsSymm) (hnonneg : ∀ z, 0 ≤ z ⬝ᵥ A *ᵥ z)
    (x y : Fin n → ℝ) : (x ⬝ᵥ A *ᵥ y) ^ 2 ≤ (x ⬝ᵥ A *ᵥ x) * (y ⬝ᵥ A *ᵥ y) := by
  have hswap : y ⬝ᵥ A *ᵥ x = x ⬝ᵥ A *ᵥ y := by
    rw [dotProduct_mulVec, ← mulVec_transpose, hsymm.eq, dotProduct_comm]
  have h := LinearMap.BilinForm.apply_mul_apply_le_of_forall_zero_le (toLinearMap₂' ℝ A)
    (fun z => by rw [toLinearMap₂'_apply']; exact hnonneg z) x y
  simp only [toLinearMap₂'_apply', hswap] at h
  rwa [sq]

namespace Sparse

variable {A : Sparse ℝ n n} {c C : ℝ}

noncomputable def overDiagonal (A : Sparse ℝ n n) (x : Vec ℝ n) : Vec ℝ n :=
  (Krylov.Preconditioner.jacobi (.ofFn fun i => 1 / A.entry i i)).apply (A.mulVec x)

theorem diagonalForm_overDiagonal (hpos : ∀ i, 0 < A.entry i i) (y : Fin n → ℝ) (x : Vec ℝ n) :
    A.diagonalForm y (A.overDiagonal x).values = y ⬝ᵥ A.toMatrix *ᵥ x.values := by
  refine Finset.sum_congr rfl fun i _ => ?_
  have hne := (hpos i).ne'
  have hvalue : (A.overDiagonal x).values i = 1 / A.entry i i * (A.toMatrix *ᵥ x.values) i := by
    rw [← values_mulVec]
    simp [overDiagonal, Krylov.Preconditioner.apply, Vec.values_apply]
  rw [hvalue]
  field_simp

theorem diagonalForm_sq_le (hpos : ∀ i, 0 < A.entry i i) (x y : Fin n → ℝ) :
    A.diagonalForm x y ^ 2 ≤ A.diagonalForm x x * A.diagonalForm y y := by
  simp only [diagonalForm_eq]
  refine form_sq_le (isSymm_diagonal _) (fun z => ?_) x y
  rw [← diagonalForm_eq]
  exact diagonalForm_nonneg hpos z

namespace WithinDiagonal

variable (h : A.WithinDiagonal c C) (hc : 0 < c) (hpos : ∀ i, 0 < A.entry i i)
include h hc hpos

theorem form_nonneg (z : Fin n → ℝ) : 0 ≤ z ⬝ᵥ A.toMatrix *ᵥ z :=
  (mul_nonneg hc.le (diagonalForm_nonneg hpos z)).trans (h z).1

/-- The form of the matrix at `x` and at what it makes of `x` bounds the stretch of `x`. -/
theorem overDiagonal_le (hsymm : A.toMatrix.IsSymm) (x : Vec ℝ n) :
    A.diagonalForm (A.overDiagonal x).values (A.overDiagonal x).values ≤
      C ^ 2 * A.diagonalForm x.values x.values := by
  set y := (A.overDiagonal x).values
  have hy := diagonalForm_nonneg hpos y
  rcases hy.eq_or_lt with hzero | hlt
  · rw [← hzero]
    exact mul_nonneg (sq_nonneg C) (diagonalForm_nonneg hpos _)
  have hform : A.diagonalForm y y = y ⬝ᵥ A.toMatrix *ᵥ x.values := diagonalForm_overDiagonal hpos y x
  have hchain : A.diagonalForm y y * A.diagonalForm y y ≤
      A.diagonalForm y y * (C ^ 2 * A.diagonalForm x.values x.values) :=
    calc A.diagonalForm y y * A.diagonalForm y y = (y ⬝ᵥ A.toMatrix *ᵥ x.values) ^ 2 := by rw [hform, sq]
      _ ≤ (y ⬝ᵥ A.toMatrix *ᵥ y) * (x.values ⬝ᵥ A.toMatrix *ᵥ x.values) :=
        form_sq_le hsymm (h.form_nonneg hc hpos) y x.values
      _ ≤ (C * A.diagonalForm y y) * (C * A.diagonalForm x.values x.values) :=
        mul_le_mul (h y).2 (h x.values).2 (h.form_nonneg hc hpos _) ((h.form_nonneg hc hpos y).trans (h y).2)
      _ = _ := by ring
  exact le_of_mul_le_mul_left hchain hlt

theorem le_overDiagonal (x : Vec ℝ n) : c ^ 2 * A.diagonalForm x.values x.values ≤
    A.diagonalForm (A.overDiagonal x).values (A.overDiagonal x).values := by
  set y := (A.overDiagonal x).values
  have hx := diagonalForm_nonneg hpos x.values
  rcases hx.eq_or_lt with hzero | hlt
  · rw [← hzero, mul_zero]
    exact diagonalForm_nonneg hpos y
  have hform : A.diagonalForm x.values y = x.values ⬝ᵥ A.toMatrix *ᵥ x.values := diagonalForm_overDiagonal hpos _ x
  have hchain : A.diagonalForm x.values x.values * (c ^ 2 * A.diagonalForm x.values x.values) ≤
      A.diagonalForm x.values x.values * A.diagonalForm y y :=
    calc _ = (c * A.diagonalForm x.values x.values) ^ 2 := by ring
      _ ≤ (x.values ⬝ᵥ A.toMatrix *ᵥ x.values) ^ 2 := pow_le_pow_left₀ (mul_nonneg hc.le hx) (h x.values).1 2
      _ = A.diagonalForm x.values y ^ 2 := by rw [hform]
      _ ≤ _ := diagonalForm_sq_le hpos x.values y
  exact le_of_mul_le_mul_left hchain hlt

theorem conditionAtMost (hC : 0 ≤ C) (hsymm : A.toMatrix.IsSymm) :
    ConditionAtMost A.diagonalNorm A.overDiagonal (C / c) := by
  have hnorm : ∀ u, A.diagonalNorm u = √(A.diagonalForm u.values u.values) :=
    fun u => congrArg Real.sqrt (dot_ofDiagonal_mulVec A u u)
  refine ⟨c, hc, fun x => ⟨?_, ?_⟩⟩
  · rw [hnorm, hnorm, ← Real.sqrt_sq hc.le, ← Real.sqrt_mul (sq_nonneg c)]
    exact Real.sqrt_le_sqrt (h.le_overDiagonal hc hpos x)
  · rw [div_mul_cancel₀ C hc.ne', hnorm, hnorm, ← Real.sqrt_sq hC, ← Real.sqrt_mul (sq_nonneg C)]
    exact Real.sqrt_le_sqrt (h.overDiagonal_le hc hpos hsymm x)

omit hc in
theorem eigenvalue_mem {x : Vec ℝ n} (hx : x ≠ Vec.zeros n) {l : ℝ} (hl : A.overDiagonal x = Vec.scale l x) :
    l ∈ Set.Icc c C := by
  have hne : x.values ≠ 0 := fun hzero => hx (Vec.values_injective (hzero.trans Vec.values_zeros.symm))
  have hd := diagonalForm_pos hpos hne
  have hform : l * A.diagonalForm x.values x.values = x.values ⬝ᵥ A.toMatrix *ᵥ x.values := by
    rw [← diagonalForm_overDiagonal hpos, hl, Vec.values_scale, diagonalForm_eq, diagonalForm_eq, mulVec_smul,
      dotProduct_smul, smul_eq_mul]
  obtain ⟨hlower, hupper⟩ := h x.values
  rw [← hform] at hlower hupper
  exact ⟨le_of_mul_le_mul_right hlower hd, le_of_mul_le_mul_right hupper hd⟩

end WithinDiagonal

end Sparse

end Magnetofluid
