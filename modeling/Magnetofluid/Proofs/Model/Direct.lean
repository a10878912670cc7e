import Mathlib
import Magnetofluid.Proofs.Model.Evaluation
import Magnetofluid.Proofs.Newton.Solver

/-!
# Direct solves

Exact solves are there on every mesh: the eliminated mass matrix is invertible, and so is the eliminated stiffness
matrix where some node is essential.

* `Krylov.direct_exact`: the inverse matrix solves exactly.
* `Model.withSolves_direct_exactSolves`: a model that solves by inverse matrices has exact solves.
* `Model.exists_constrained`: any vorticity has a stream function.
* `Newton.direct_sound`: a linear solver that refuses singular matrices and inverts all others.
-/

namespace Magnetofluid

open Matrix

variable {n : ℕ}

namespace Krylov

/-- The solves by the inverse matrix. -/
noncomputable def direct (A : Sparse ℝ n n) : LinearSolve ℝ n := fun b _ => pure (.ofFn (A.toMatrix⁻¹ *ᵥ b.values))

theorem mulVec_inverse {A : Sparse ℝ n n} (hA : IsUnit A.toMatrix) (b : Vec ℝ n) :
    A.mulVec (.ofFn (A.toMatrix⁻¹ *ᵥ b.values)) = b := by
  refine Vec.values_injective ?_
  rw [Sparse.values_mulVec, Vec.values_ofFn, Matrix.mulVec_mulVec,
    Matrix.mul_nonsing_inv _ ((Matrix.isUnit_iff_isUnit_det _).1 hA), Matrix.one_mulVec]

theorem direct_exact {A : Sparse ℝ n n} (hA : Function.Injective (A.toMatrix *ᵥ ·)) : Exact A (direct A) :=
  fun b _ r => ⟨_, r, rfl, mulVec_inverse (Matrix.mulVec_injective_iff_isUnit.1 hA) b⟩

end Krylov

namespace Newton

open Classical in
/-- The linear solver that inverts the matrix, if it is not singular. -/
noncomputable def direct : LinearSolver ℝ n := fun J _ r =>
  if IsUnit J.toMatrix then .ok ⟨.ofFn (J.toMatrix⁻¹ *ᵥ r.values), 0⟩ else .error .singular

theorem direct_sound : Sound (direct (n := n)) := by
  intro J P r answer hanswer _
  unfold direct at hanswer
  split at hanswer
  · cases hanswer
    exact Krylov.mulVec_inverse ‹_› r
  · cases hanswer

theorem info_of_direct {J : Sparse ℝ n n} {P : Krylov.Preconditioner ℝ n} {r : Vec ℝ n} {answer : LinearStep ℝ n}
    (h : direct J P r = .ok answer) : answer.info = 0 := by
  unfold direct at h
  split at h
  · cases h
    rfl
  · cases h

end Newton

/-- The linear solves of a model. -/
structure Solves (n : ℕ) where
  mass : Krylov.LinearSolve ℝ n
  stiffness : Krylov.LinearSolve ℝ n
  multigrid : Krylov.LinearSolve ℝ n
  linear : Newton.LinearSolver ℝ (3 * n)

noncomputable def Solves.direct (ops : Operators ℝ n) : Solves n where
  mass := Krylov.direct ops.massSystem
  stiffness := Krylov.direct ops.stiffnessSystem
  multigrid := Krylov.direct ops.stiffnessSystem
  linear := Newton.direct

namespace Model

/-- Every solve of mass and stiffness matrix has an answer, and it is a solution. -/
structure ExactSolves (model : Model ℝ n) : Prop where
  mass : Krylov.Exact model.massSystem model.massSolve
  stiffness : ∀ solve, model.IsStiffnessSolve solve → Krylov.Exact model.stiffnessSystem solve

/-- Every answer of a solve that a model makes is a solution. -/
structure SoundSolves (model : Model ℝ n) : Prop where
  mass : Krylov.Sound model.massSystem model.massSolve
  stiffness : ∀ solve, model.IsStiffnessSolve solve → Krylov.Sound model.stiffnessSystem solve
  linear : Newton.Sound model.linear

def withSolves (model : Model ℝ n) (solves : Solves n) : Model ℝ n :=
  { model with
    massSolve := solves.mass
    stiffnessSolve := solves.stiffness
    multigridSolve := model.multigridSolve.map fun _ => solves.multigrid
    linear := solves.linear }

section Direct

variable {m : Mesh ℝ} {ess : Essential m.nodes} {viscosity resistivity : ℝ}

theorem withSolves_direct_exactSolves {model : Model ℝ m.nodes} (h : m.Proper) (hess : ∃ k, k ∈ ess)
    (hops : model.toOperators = .ofMesh m ess viscosity resistivity) :
    (model.withSolves (.direct model.toOperators)).ExactSolves := by
  have hmass : Krylov.Exact model.massSystem (Krylov.direct model.massSystem) := by
    rw [hops]
    exact Krylov.direct_exact (Form.mass_definite h ess).eliminate_injective
  have hstiffness : Krylov.Exact model.stiffnessSystem (Krylov.direct model.stiffnessSystem) := by
    rw [hops]
    exact Krylov.direct_exact (Form.stiffness_definite h hess).eliminate_injective
  refine ⟨hmass, ?_⟩
  rintro solve (rfl | hsolve)
  · exact hstiffness
  · obtain ⟨_, -, rfl⟩ := Option.map_eq_some_iff.1 hsolve
    exact hstiffness

theorem withSolves_direct_soundSolves {model : Model ℝ m.nodes} (h : m.Proper) (hess : ∃ k, k ∈ ess)
    (hops : model.toOperators = .ofMesh m ess viscosity resistivity) :
    (model.withSolves (.direct model.toOperators)).SoundSolves := by
  obtain ⟨hmass, hstiffness⟩ := withSolves_direct_exactSolves h hess hops
  exact ⟨hmass.sound, fun solve hsolve => (hstiffness solve hsolve).sound, Newton.direct_sound⟩

end Direct

/-- For any flux and vorticity there is a stream function with which they obey the constraint. -/
theorem exists_constrained {model : Model ℝ n} (hsolves : model.ExactSolves)
    (hsystem : model.stiffnessSystem = model.stiffness.eliminate model.ess) (psi w : Vec ℝ n) :
    ∃ phi, model.ess.ZeroOn phi.values ∧ model.Constrained ⟨phi, psi, w⟩ := by
  obtain ⟨phi, _, -, hphi⟩ := hsolves.stiffness _ (.inl rfl) (model.potentialLoad w) (Vec.zeros n) .fresh
  exact ⟨phi, potential_zeroOn hsystem hphi, potential_constrained (x := ⟨phi, psi, w⟩) hphi⟩

/-- A viscous and resistive model of the unit square inside walls. -/
noncomputable def square : Model ℝ Mesh.unitSquare.nodes :=
  let ops : Operators ℝ Mesh.unitSquare.nodes := .ofMesh Mesh.unitSquare (.boundary _) 1 1
  { ops with
    massSolve := Krylov.direct ops.massSystem
    stiffnessSolve := Krylov.direct ops.stiffnessSystem
    multigridSolve := none
    newton :=
      { rtol := .ok 1e-8, atol := .ok 1e-12, maxIter := .ok 20, alpha := .ok 1, linearRtol := .ok 1e-8
        linearAtol := .ok 0, linearMaxIter := .ok (some 500), restart := fun _ => .ok 50, verbose := .ok false }
    linear := Newton.direct
    preconditioner := .none }

theorem square_exactSolves : square.ExactSolves :=
  have hops : square.toOperators = .ofMesh Mesh.unitSquare (.boundary _) 1 1 := rfl
  withSolves_direct_exactSolves Mesh.unitSquare_proper (Essential.boundary_nonempty _) hops

noncomputable def vortex : Vec ℝ Mesh.unitSquare.nodes := .ofFn fun k => if Mesh.unitSquare.OnBoundary k then 0 else 1

/-- The flux of a field, with values of all sizes on the boundary. -/
noncomputable def ramp : Vec ℝ Mesh.unitSquare.nodes := .ofFn fun k => (k : ℕ)

/-- The memory of a model that is forced and has evaluated nothing. -/
noncomputable def forced : Memory ℝ Mesh.unitSquare.nodes := { Memory.fresh square with forcing := some ramp }

theorem forced_zeroOn : square.ess.ZeroOn forced.current.values := fun i _ => congrFun Vec.values_zeros i

theorem vortex_zeroOn : square.ess.ZeroOn vortex.values := by
  intro k hk
  have hwall := (Essential.boundary_isBoundary _ k).1 hk
  unfold vortex
  rw [Vec.values_ofFn, if_pos hwall]

theorem exists_square_state : ∃ phi, square.ess.ZeroOn phi.values ∧ square.Constrained ⟨phi, ramp, vortex⟩ :=
  exists_constrained square_exactSolves rfl ramp vortex

end Model

end Magnetofluid
