import Mathlib
import Magnetofluid.Proofs.Krylov.Preconditioner
import Magnetofluid.Proofs.Model.Direct

/-!
# Linear systems of the model

The matrices that are solved by conjugate gradients are symmetric and positive definite: that of the mass on every mesh
and for every set of essential nodes, that of the stiffness where some node is essential.

* `Model.potential_existsUnique_iff`: a vorticity has one stream function if some node is essential, and otherwise none
  or more than one.
* `Model.systems_definite`: all of this for the systems of one model.
-/

namespace Magnetofluid

open Matrix

namespace Form

variable {m : Mesh ℝ} {ess : Essential m.nodes}

/-- The fields without gradients are the constant ones. -/
theorem stiffness_eq_zero_iff (h : m.Proper) (x : Vec ℝ m.nodes) :
    x.values ⬝ᵥ (diffusion m 1).toMatrix *ᵥ x.values = 0 ↔ ∃ c, x = Vec.fill m.nodes c := by
  constructor
  · intro hx
    refine ⟨x.values (m.node 0 0), Vec.values_injective (funext fun k => ?_)⟩
    rw [Vec.values_fill]
    exact eq_of_stiffness_eq_zero h hx k _
  · rintro ⟨c, rfl⟩
    rw [Vec.values_fill]
    exact diffusion_const h 1 _ c

theorem massSystem_posDef (h : m.Proper) (ess : Essential m.nodes) : ((mass m).eliminate ess).toMatrix.PosDef :=
  (mass_positive h ess).posDef_eliminate (mass_isSymm m)

theorem stiffnessSystem_posDef_iff (h : m.Proper) :
    ((diffusion m 1).eliminate ess).toMatrix.PosDef ↔ ∃ k, k ∈ ess := by
  refine ⟨fun hpos => ?_, fun hess => (stiffness_positive h hess).posDef_eliminate (stiffness_isSymm h)⟩
  by_contra hess
  -- without essential nodes nothing is eliminated, and a constant has no energy
  have hinner : ess.inner 1 = 1 := funext fun k => Essential.inner_of_not_mem (not_exists.1 hess k)
  have hone : (1 : Fin m.nodes → ℝ) ≠ 0 := fun hzero => one_ne_zero (congrFun hzero (m.node 0 0))
  have hform := hpos.dotProduct_mulVec_pos hone
  rw [star_trivial, Sparse.eliminate_form, hinner, sub_self, zero_dotProduct, add_zero] at hform
  exact hform.ne' (diffusion_const h 1 1 1)

end Form

namespace Model

variable {m : Mesh ℝ} {ess : Essential m.nodes} {viscosity resistivity : ℝ} {model : Model ℝ m.nodes}

theorem potential_existsUnique_iff (h : m.Proper) (hops : model.toOperators = .ofMesh m ess viscosity resistivity)
    (w : Vec ℝ m.nodes) :
    (∃! phi, model.stiffnessSystem.mulVec phi = model.potentialLoad w) ↔ ∃ k, k ∈ ess := by
  have hsystem : model.stiffnessSystem = (Form.diffusion m 1).eliminate ess := by
    rw [hops]
    rfl
  rw [hsystem]
  constructor
  · rintro ⟨phi, hphi, hunique⟩
    by_contra hess
    -- without essential nodes a constant may be added to any solution
    have hnot : ∀ k, k ∉ ess := not_exists.1 hess
    have hshift : ((Form.diffusion m 1).eliminate ess).mulVec (phi + Vec.fill m.nodes 1) = model.potentialLoad w := by
      refine (Vec.values_injective ?_).trans hphi
      rw [Sparse.values_mulVec, Sparse.values_mulVec, Vec.values_add, Matrix.mulVec_add, add_eq_left]
      refine dotProduct_eq_zero _ fun x => ?_
      rw [dotProduct_comm, Sparse.eliminate_form, Essential.inner_eq_self hnot, Essential.inner_eq_self hnot, sub_self,
        zero_dotProduct, add_zero, Vec.values_fill]
      exact Form.diffusion_const h 1 x 1
    have hvalue := congrFun (congrArg Vec.values (hunique _ hshift)) (m.node 0 0)
    rw [Vec.values_add, Vec.values_fill, Pi.add_apply, add_eq_left] at hvalue
    exact one_ne_zero hvalue
  · intro hess
    have hinjective := (Form.stiffness_positive h hess).definite.eliminate_injective
    refine ⟨_, Krylov.mulVec_inverse (mulVec_injective_iff_isUnit.1 hinjective) _, fun phi hphi => ?_⟩
    refine Vec.values_injective (hinjective ?_)
    show _ *ᵥ _ = _ *ᵥ _
    rw [← Sparse.values_mulVec, ← Sparse.values_mulVec, hphi,
      Krylov.mulVec_inverse (mulVec_injective_iff_isUnit.1 hinjective)]

/-- **The systems of a model are fit for conjugate gradients.**  Mass and stiffness matrix are symmetric, and the energy
of a field is positive unless the field is constant.  The eliminated mass matrix is positive definite, so that division
by its diagonal can always be set up; the eliminated stiffness matrix is so, and determines the stream function of every
vorticity, exactly when some node is essential. -/
theorem systems_definite (h : m.Proper) (hops : model.toOperators = .ofMesh m ess viscosity resistivity) :
    model.mass.toMatrix.IsSymm ∧ model.stiffness.toMatrix.IsSymm ∧ model.massSystem.toMatrix.PosDef ∧
      (∀ x, 0 ≤ Vec.dot x (model.stiffness.mulVec x)) ∧
      (∀ x, Vec.dot x (model.stiffness.mulVec x) = 0 ↔ ∃ c, x = Vec.fill m.nodes c) ∧
      (model.stiffnessSystem.toMatrix.PosDef ↔ ∃ k, k ∈ ess) ∧
      (∀ settings : Krylov.Settings ℝ, settings.preconditioner = .jacobi →
        ∃ solver, Krylov.Solver.make ⟨_, _, model.massSystem⟩ settings = .ok solver) ∧
      ∀ w, (∃! phi, model.stiffnessSystem.mulVec phi = model.potentialLoad w) ↔ ∃ k, k ∈ ess := by
  have hunique := fun w => potential_existsUnique_iff h hops w
  have hmass := Form.massSystem_posDef h ess
  rw [hops] at hunique ⊢
  refine ⟨Form.mass_isSymm m, Form.stiffness_isSymm h, hmass, fun x => ?_, fun x => ?_,
    Form.stiffnessSystem_posDef_iff h, fun settings hsettings => ⟨_, Krylov.Solver.make_jacobi (fun i => ?_) hsettings⟩,
    hunique⟩
  · rw [Vec.dot_eq, Sparse.values_mulVec]
    exact Form.stiffness_nonneg h x.values
  · rw [Vec.dot_eq, Sparse.values_mulVec]
    exact Form.stiffness_eq_zero_iff h x
  · exact hmass.diag_pos.ne'

/-- The usual settings for the solves of the mass matrix. -/
noncomputable def massSettings : Krylov.Settings ℝ where
  method := .cg
  preconditioner := .jacobi
  rtol := .ok 1e-12
  atol := .ok 0
  maxIter := .ok (some 2000)
  iterative := true
  name := "M_solver"

theorem systems_definite_square :
    square.massSystem.toMatrix.PosDef ∧ square.stiffnessSystem.toMatrix.PosDef ∧
      (Vec.dot ramp (square.stiffness.mulVec ramp) = 0 ↔ ∃ c, ramp = Vec.fill _ c) ∧
      (∃ solver, Krylov.Solver.make ⟨_, _, square.massSystem⟩ massSettings = .ok solver) ∧
      ∃! phi, square.stiffnessSystem.mulVec phi = square.potentialLoad vortex := by
  have hops : square.toOperators = .ofMesh Mesh.unitSquare (.boundary _) 1 1 := rfl
  obtain ⟨-, -, hmass, -, hconstant, hstiffness, hmake, hunique⟩ := systems_definite Mesh.unitSquare_proper hops
  have hess := Essential.boundary_nonempty Mesh.unitSquare
  exact ⟨hmass, hstiffness.2 hess, hconstant ramp, hmake massSettings rfl, (hunique vortex).2 hess⟩

end Model

end Magnetofluid
