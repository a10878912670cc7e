import Mathlib
import Magnetofluid.Krylov.Solver
import Magnetofluid.Proofs.Exact.Arithmetic

/-!
# Preconditioners over the reals

* `Krylov.Preconditioner.build_jacobi`, `Krylov.Preconditioner.build_jacobi_of_zero`: division by the diagonal can be set
  up for a diagonal without zeros, and for no other.
* `Krylov.Solver.make_jacobi`: so can the context of a solver that is preconditioned by it.
-/

namespace Magnetofluid

variable {n : ℕ} {A : Sparse ℝ n n}

theorem AnyMatrix.square?_mk (A : Sparse ℝ n n) : AnyMatrix.square? n ⟨n, n, A⟩ = some A := by
  simp [square?]

namespace Krylov

theorem Preconditioner.build_jacobi (h : ∀ i, A.entry i i ≠ 0) :
    Preconditioner.build A .jacobi = .ok (.jacobi (.ofFn fun i => 1 / A.entry i i)) := by
  have hany : A.diagonal.any Scalar.isZero = false := by
    rw [Vector.any_eq_false]
    intro i hi
    have hentry : A.entry ⟨i, hi⟩ ⟨i, hi⟩ ≠ 0 := h _
    simpa [Sparse.diagonal] using hentry
  show Preconditioner.ofDiagonal A = _
  unfold Preconditioner.ofDiagonal
  simp only [hany]
  simp [Sparse.diagonal]

theorem Preconditioner.build_jacobi_of_zero {i : Fin n} (h : A.entry i i = 0) :
    Preconditioner.build A .jacobi = .error .zeroDiagonal := by
  have hany : A.diagonal.any Scalar.isZero = true := by
    rw [Vector.any_eq_true]
    exact ⟨i, i.isLt, by simpa [Sparse.diagonal] using h⟩
  show Preconditioner.ofDiagonal A = _
  unfold Preconditioner.ofDiagonal
  simp only [hany]
  rfl

theorem Solver.make_jacobi (h : ∀ i, A.entry i i ≠ 0) {settings : Settings ℝ}
    (hsettings : settings.preconditioner = .jacobi) :
    Solver.make ⟨n, n, A⟩ settings =
      .ok ⟨settings, some ⟨n, n, A⟩, some ⟨n, .jacobi (.ofFn fun i => 1 / A.entry i i)⟩, .fresh⟩ := by
  unfold Solver.make Solver.preconditionerOf
  simp only [AnyMatrix.square?_mk, hsettings, Preconditioner.build_jacobi h]
  rfl

end Krylov

end Magnetofluid
