import Mathlib
import Magnetofluid.Proofs.Linear.Diagonal
import Magnetofluid.Proofs.Mesh.Edges
import Magnetofluid.Proofs.Model.Systems

/-!
# Conditioning of the mass matrix

On one triangle the form of the mass matrix lies between one half and twice that of its diagonal, whatever the shape of
the triangle.  Sums over triangles inherit this, and so does the matrix without its essential rows and columns.

* `Form.mass_withinDiagonal`: the bounds before elimination.
* `Form.massSystem_conditioned`: the bounds after it, and the condition number after division by the diagonal.
-/

namespace Magnetofluid.Form

open Matrix Grid

variable {m : Mesh ℝ}

/-- A node is a corner of a triangle once or not at all. -/
theorem cornerSum_single_mul_self (i : Fin m.nodes) (t : Fin m.triangles) :
    cornerSum (Pi.single i 1) t * cornerSum (Pi.single i 1) t = cornerSum (Pi.single i 1) t := by
  by_cases hi : ∃ a, m.corner t a = i
  · obtain ⟨a, rfl⟩ := hi
    have hone : cornerSum (Pi.single (m.corner t a) 1) t = 1 := by
      refine (Finset.sum_eq_single a (fun b _ hb => ?_) fun ha => absurd (Finset.mem_univ a) ha).trans ?_
      · exact Pi.single_eq_of_ne (fun h => hb (m.corner_injective t h)) 1
      · exact Pi.single_eq_same _ 1
    rw [hone, one_mul]
  · have hzero : cornerSum (Pi.single i 1) t = 0 :=
      Finset.sum_eq_zero fun a _ => Pi.single_eq_of_ne (fun h => hi ⟨a, h⟩) 1
    rw [hzero, zero_mul]

theorem mass_entry_self (i : Fin m.nodes) :
    (mass m).entry i i = ∑ t, (m.element t).area / 6 * cornerSum (Pi.single i 1) t := by
  rw [Sparse.entry_eq_form, mass_form]
  refine Finset.sum_congr rfl fun t _ => ?_
  have hsquares : ∑ a, (Pi.single i 1 : Fin m.nodes → ℝ) (m.corner t a) *
      (Pi.single i 1 : Fin m.nodes → ℝ) (m.corner t a) = cornerSum (Pi.single i 1) t := by
    refine Finset.sum_congr rfl fun a _ => ?_
    by_cases h : m.corner t a = i
    · rw [h, Pi.single_eq_same, one_mul]
    · rw [Pi.single_eq_of_ne h, zero_mul]
  rw [cornerSum_single_mul_self, hsquares]
  ring

theorem mass_diagonalForm (x : Fin m.nodes → ℝ) : (mass m).diagonalForm x x =
    ∑ t, (m.element t).area / 6 * ∑ a, x (m.corner t a) * x (m.corner t a) := by
  have hpick : ∀ t, ∑ i, cornerSum (Pi.single i 1) t * (x i * x i) = ∑ a, x (m.corner t a) * x (m.corner t a) := by
    intro t
    simp only [cornerSum, Finset.sum_mul]
    rw [Finset.sum_comm]
    refine Finset.sum_congr rfl fun a _ => ?_
    simp [Pi.single_apply]
  simp only [Sparse.diagonalForm, mass_entry_self, Finset.sum_mul, ← hpick, Finset.mul_sum]
  rw [Finset.sum_comm]
  refine Finset.sum_congr rfl fun t _ => Finset.sum_congr rfl fun i _ => ?_
  ring

theorem mass_withinDiagonal (h : m.Proper) : (mass m).WithinDiagonal (1 / 2) 2 := by
  intro x
  have hsquares : ∀ t, cornerSum x t * cornerSum x t ≤ 3 * ∑ a, x (m.corner t a) * x (m.corner t a) := by
    intro t
    have hsum := sq_sum_le_card_mul_sum_sq (s := Finset.univ) (f := fun a => x (m.corner t a))
    unfold cornerSum
    simpa only [sq, Finset.card_univ, Fintype.card_fin, Nat.cast_ofNat] using hsum
  have harea : ∀ t, 0 ≤ (m.element t).area / 12 := fun t => div_nonneg (m.element_area_pos h t).le (by norm_num)
  rw [mass_diagonalForm, mass_form, Finset.mul_sum, Finset.mul_sum]
  constructor
  · refine Finset.sum_le_sum fun t _ => ?_
    calc 1 / 2 * ((m.element t).area / 6 * ∑ a, x (m.corner t a) * x (m.corner t a))
        = (m.element t).area / 12 * (0 + ∑ a, x (m.corner t a) * x (m.corner t a)) := by ring
      _ ≤ _ := mul_le_mul_of_nonneg_left (add_le_add_left (mul_self_nonneg _) _) (harea t)
  · refine Finset.sum_le_sum fun t _ => ?_
    calc _ ≤ (m.element t).area / 12 * (3 * ∑ a, x (m.corner t a) * x (m.corner t a) +
          ∑ a, x (m.corner t a) * x (m.corner t a)) :=
        mul_le_mul_of_nonneg_left (add_le_add_left (hsquares t) _) (harea t)
      _ = _ := by ring

/-- **The mass matrix is well-conditioned on every mesh.**  With any essential positions eliminated, its form lies
between one half and twice that of its diagonal.  Division by the diagonal can be set up, and leaves an operator with a
condition number of at most four, all of whose eigenvalues lie between one half and two. -/
theorem massSystem_conditioned (h : m.Proper) (ess : Essential m.nodes) :
    let A := (mass m).eliminate ess
    let D := Sparse.ofDiagonal A.diagonal
    (∀ x, 1 / 2 * Vec.dot x (D.mulVec x) ≤ Vec.dot x (A.mulVec x) ∧
        Vec.dot x (A.mulVec x) ≤ 2 * Vec.dot x (D.mulVec x)) ∧
      (∀ x, x ≠ Vec.zeros _ → 0 < Vec.dot x (D.mulVec x)) ∧
      ∃ P, Krylov.Preconditioner.build A .jacobi = .ok P ∧
        ConditionAtMost A.diagonalNorm (fun x => P.apply (A.mulVec x)) 4 ∧
        ∀ x l, x ≠ Vec.zeros _ → P.apply (A.mulVec x) = Vec.scale l x → l ∈ Set.Icc (1 / 2) 2 := by
  intro A D
  have hwithin : A.WithinDiagonal (1 / 2) 2 := (mass_withinDiagonal h).eliminate (by norm_num) (by norm_num) ess
  have hposDef : A.toMatrix.PosDef := massSystem_posDef h ess
  have hpos : ∀ i, 0 < A.entry i i := fun i => hposDef.diag_pos
  have hsymm : A.toMatrix.IsSymm := Sparse.isSymm_eliminate (mass_isSymm m) ess
  have hform : ∀ x, Vec.dot x (D.mulVec x) = A.diagonalForm x.values x.values :=
    fun x => Sparse.dot_ofDiagonal_mulVec A x x
  refine ⟨fun x => ?_, fun x hx => ?_, _, Krylov.Preconditioner.build_jacobi fun i => (hpos i).ne', ?_,
    fun x l hx hl => ?_⟩
  · rw [hform, Vec.dot_eq, Sparse.values_mulVec]
    exact hwithin x.values
  · rw [hform]
    exact Sparse.diagonalForm_pos hpos fun hzero => hx (Vec.values_injective (hzero.trans Vec.values_zeros.symm))
  · have hcondition := hwithin.conditionAtMost one_half_pos hpos zero_le_two hsymm
    norm_num at hcondition
    exact hcondition
  · exact hwithin.eigenvalue_mem hpos hx hl

theorem massSystem_conditioned_square :
    let A := (mass Mesh.unitSquare).eliminate (.boundary _)
    let D := Sparse.ofDiagonal A.diagonal
    Mesh.unitSquare.Proper ∧
      1 / 2 * Vec.dot Model.ramp (D.mulVec Model.ramp) ≤ Vec.dot Model.ramp (A.mulVec Model.ramp) ∧
      Vec.dot Model.ramp (A.mulVec Model.ramp) ≤ 2 * Vec.dot Model.ramp (D.mulVec Model.ramp) ∧
      ∃ P, Krylov.Preconditioner.build A .jacobi = .ok P ∧
        ConditionAtMost A.diagonalNorm (fun x => P.apply (A.mulVec x)) 4 := by
  obtain ⟨hform, -, P, hP, hcondition, -⟩ := massSystem_conditioned Mesh.unitSquare_proper (.boundary _)
  exact ⟨Mesh.unitSquare_proper, (hform Model.ramp).1, (hform Model.ramp).2, P, hP, hcondition⟩

end Magnetofluid.Form
