import Mathlib
import Magnetofluid.Model.Basic
import Magnetofluid.Proofs.Form.Bilinear

/-!
# Operators of the model over the reals

The loads of the explicit rates and the residual of the step, read as vectors of real numbers, and the system that
makes a field the current of a flux.

* `Operators.values_plusProduct`, `Operators.values_minusProduct`: leaving out a diffusion with coefficient zero
  changes nothing.
* `Model.values_residual_psi`, `Model.values_residual_w`: off the essential nodes the residual is the mass matrix times
  the rate of the step, less the load of the explicit rate.
* `Operators.IsCurrent`: the current of a flux, which is determined by its prescribed values (`IsCurrent.unique`).
-/

namespace Magnetofluid

open Matrix

/-- The load of a forcing, zero where there is none. -/
noncomputable def forcingValues {n : ℕ} (forcing : Option (Vec ℝ n)) : Fin n → ℝ := (forcing.getD (Vec.zeros n)).values

@[simp] theorem forcingValues_none {n : ℕ} : forcingValues (none : Option (Vec ℝ n)) = 0 := Vec.values_zeros

namespace Operators

/-! ### Diffusion -/

section Diffusion

variable {m : Mesh ℝ} (h : m.Proper) (c : ℝ) (x y : Vec ℝ m.nodes)
include h

theorem values_plusProduct :
    (Vec.plusProduct? x (diffusion? m c) y).values =
      x.values + c • (Form.diffusion m 1).toMatrix *ᵥ y.values := by
  unfold diffusion? Vec.plusProduct?
  by_cases hc : c = 0
  · simp [hc]
  · simp [hc, Form.diffusion_mulVec h c]

theorem values_minusProduct :
    (Vec.minusProduct? x (diffusion? m c) y).values =
      x.values - c • (Form.diffusion m 1).toMatrix *ᵥ y.values := by
  unfold diffusion? Vec.minusProduct?
  by_cases hc : c = 0
  · simp [hc]
  · simp [hc, Form.diffusion_mulVec h c]

end Diffusion

/-! ### Constraint -/

/-- A state obeys the constraint on its stream function, off the essential nodes. -/
def Constrained {n : ℕ} (ops : Operators ℝ n) (x : State ℝ n) : Prop :=
  ∀ i ∉ ops.ess, (ops.stiffnessSystem.mulVec x.phi + ops.massSystem.mulVec x.w).values i = 0

/-- The constraint is linear. -/
theorem Constrained.sub_smul {n : ℕ} {ops : Operators ℝ n} {x y z : State ℝ n} {c : ℝ} (hx : ops.Constrained x)
    (hy : ops.Constrained y) (hphi : z.phi.values = x.phi.values - c • y.phi.values)
    (hw : z.w.values = x.w.values - c • y.w.values) : ops.Constrained z := by
  intro i hi
  have hxi := hx i hi
  have hyi := hy i hi
  simp only [Vec.values_add, Sparse.values_mulVec, Pi.add_apply] at hxi hyi ⊢
  rw [hphi, hw, Matrix.mulVec_sub, Matrix.mulVec_sub, Matrix.mulVec_smul, Matrix.mulVec_smul, Pi.sub_apply,
    Pi.sub_apply, Pi.smul_apply, Pi.smul_apply, smul_eq_mul, smul_eq_mul]
  linear_combination hxi - c * hyi

/-! ### Operators of a mesh -/

section Mesh

variable {m : Mesh ℝ} {ess : Essential m.nodes} {viscosity resistivity : ℝ} {ops : Operators ℝ m.nodes}
  (hops : ops = .ofMesh m ess viscosity resistivity)
include hops

theorem ess_eq : ops.ess = ess := by
  rw [hops]
  rfl

theorem massSystem_eq : ops.massSystem = ops.mass.eliminate ops.ess := by
  rw [hops]
  rfl

theorem stiffnessSystem_eq : ops.stiffnessSystem = ops.stiffness.eliminate ops.ess := by
  rw [hops]
  rfl

theorem mass_definite (h : m.Proper) : ops.ess.Definite ops.mass.toMatrix := by
  rw [hops]
  exact Form.mass_definite h ess

end Mesh

/-! ### Current -/

section Current

variable {n : ℕ}

/-- A field is the current of a flux, with the values of `boundary` on the essential nodes. -/
def IsCurrent (ops : Operators ℝ n) (boundary psi j : Vec ℝ n) : Prop :=
  (∀ i ∈ ops.ess, j.values i = boundary.values i) ∧
    ∀ i ∉ ops.ess, (ops.mass.toMatrix *ᵥ j.values) i = -(ops.jump.toMatrix *ᵥ psi.values) i

theorem isCurrent_iff (ops : Operators ℝ n) (solve : Krylov.LinearSolve ℝ n) (boundary psi j : Vec ℝ n) :
    (ops.mass.eliminate ops.ess).mulVec j =
      CurrentRecovery.rhs ⟨ops.mass, ops.jump, ops.ess, solve⟩ psi boundary ↔ ops.IsCurrent boundary psi j := by
  unfold CurrentRecovery.rhs IsCurrent
  rw [Sparse.eliminate_mulVec_eq_rhs_iff]
  simp only [Vec.values_neg, Sparse.values_mulVec, Pi.neg_apply]

/-- Only the values on the essential nodes are prescribed. -/
theorem isCurrent_overwriteOn_iff {ops : Operators ℝ n} {boundary guess psi j : Vec ℝ n} :
    ops.IsCurrent (Vec.overwriteOn ops.ess boundary guess) psi j ↔ ops.IsCurrent boundary psi j := by
  refine and_congr_left fun _ => forall₂_congr fun i hi => ?_
  rw [Vec.values_overwriteOn, if_pos hi]

theorem IsCurrent.unique {ops : Operators ℝ n} (hmass : ops.ess.Definite ops.mass.toMatrix)
    {b b' psi j j' : Vec ℝ n} (hj : ops.IsCurrent b psi j) (hj' : ops.IsCurrent b' psi j')
    (hb : ∀ i ∈ ops.ess, b.values i = b'.values i) : j = j' := by
  have hzero : ops.ess.ZeroOn (j.values - j'.values) := by
    intro i hi
    rw [Pi.sub_apply, hj.1 i hi, hj'.1 i hi, hb i hi, sub_self]
  have hrow : ∀ i ∉ ops.ess, (ops.mass.toMatrix *ᵥ (j.values - j'.values)) i = (0 : Fin n → ℝ) i := by
    intro i hi
    rw [Matrix.mulVec_sub, Pi.sub_apply, hj.2 i hi, hj'.2 i hi, sub_self]
    rfl
  have hform := hzero.dotProduct_congr hrow
  rw [dotProduct_zero] at hform
  exact Vec.values_injective (sub_eq_zero.1 (hmass _ hzero hform))

end Current

end Operators

/-! ### Loads of the explicit rate -/

namespace Model

variable {m : Mesh ℝ} (h : m.Proper) {ess : Essential m.nodes} {viscosity resistivity : ℝ} {model : Model ℝ m.nodes}
  (hops : model.toOperators = .ofMesh m ess viscosity resistivity)
include h hops

theorem values_fluxLoad (flow : Sparse ℝ m.nodes m.nodes) (forcing : Option (Vec ℝ m.nodes)) (psi : Vec ℝ m.nodes) :
    (model.fluxLoad flow forcing psi).values = -(flow.toMatrix *ᵥ psi.values) -
      resistivity • (Form.diffusion m 1).toMatrix *ᵥ psi.values - forcingValues forcing := by
  unfold fluxLoad
  rw [hops]
  have hload := Operators.values_minusProduct h resistivity (-(flow.mulVec psi)) psi
  rw [Vec.values_neg, Sparse.values_mulVec] at hload
  cases forcing with
  | none =>
    rw [forcingValues_none, sub_zero]
    exact hload
  | some e =>
    refine (Vec.values_sub _ _).trans ?_
    exact congrArg (· - e.values) hload

theorem values_vorticityLoad (flow field : Sparse ℝ m.nodes m.nodes) (j w : Vec ℝ m.nodes) :
    (model.vorticityLoad flow field j w).values = -(flow.toMatrix *ᵥ w.values) -
      viscosity • (Form.diffusion m 1).toMatrix *ᵥ w.values + field.toMatrix *ᵥ j.values := by
  unfold vorticityLoad
  rw [hops, Vec.values_add, Sparse.values_mulVec]
  have hload := Operators.values_minusProduct h viscosity (-(flow.mulVec w)) w
  rw [Vec.values_neg, Sparse.values_mulVec] at hload
  exact congrArg (· + field.toMatrix *ᵥ j.values) hload

/-! ### Residual of the step -/

section Residual

variable (s : Step ℝ m.nodes) (forcing : Option (Vec ℝ m.nodes)) (flow field : Sparse ℝ m.nodes m.nodes)
  (j : Vec ℝ m.nodes) (x : State ℝ m.nodes)

omit h in
theorem values_residual_phi :
    (s.residual model.toOperators forcing flow field j x).phi.values =
      ess.inner (model.stiffnessSystem.toMatrix *ᵥ x.phi.values + model.massSystem.toMatrix *ᵥ x.w.values) := by
  rw [hops]
  simp [Step.residual, Operators.ofMesh]

theorem values_residual_psi :
    (s.residual model.toOperators forcing flow field j x).psi.values =
      ess.inner (model.massSystem.toMatrix *ᵥ (s.rate s.start.psi x.psi).values -
        (model.fluxLoad flow forcing x.psi).values) := by
  have hflux := Operators.values_plusProduct h resistivity
    (model.massSystem.mulVec (s.rate s.start.psi x.psi) + flow.mulVec x.psi) x.psi
  rw [Vec.values_add, Sparse.values_mulVec, Sparse.values_mulVec] at hflux
  rw [values_fluxLoad h hops]
  unfold Step.residual
  rw [hops] at hflux ⊢
  cases forcing with
  | none =>
    refine (Vec.values_zeroOn _ _).trans (congrArg ess.inner (hflux.trans ?_))
    rw [forcingValues_none]
    abel
  | some e =>
    refine (Vec.values_zeroOn _ _).trans (congrArg ess.inner ?_)
    refine (Vec.values_add _ _).trans ((congrArg (· + e.values) hflux).trans ?_)
    rw [forcingValues, Option.getD_some]
    abel

theorem values_residual_w :
    (s.residual model.toOperators forcing flow field j x).w.values =
      ess.inner (model.massSystem.toMatrix *ᵥ (s.rate s.start.w x.w).values -
        (model.vorticityLoad flow field j x.w).values) := by
  have hvorticity := Operators.values_plusProduct h viscosity
    (model.massSystem.mulVec (s.rate s.start.w x.w) + flow.mulVec x.w) x.w
  rw [Vec.values_add, Sparse.values_mulVec, Sparse.values_mulVec] at hvorticity
  rw [values_vorticityLoad h hops]
  unfold Step.residual
  rw [hops] at hvorticity ⊢
  refine (Vec.values_zeroOn _ _).trans (congrArg ess.inner ((Vec.values_sub _ _).trans ?_))
  refine (congrArg (· - (field.mulVec j).values) hvorticity).trans ?_
  rw [Sparse.values_mulVec]
  abel

end Residual

end Model

namespace Step

variable {n : ℕ} (s : Step ℝ n)

@[simp] theorem values_rate (start x : Vec ℝ n) :
    (s.rate start x).values = s.dt.toScalar⁻¹ • (x.values - start.values) := by
  unfold rate
  rw [Vec.values_ofFn]
  funext i
  show (x.values i - start.values i) / _ = _ * (x.values i - start.values i)
  rw [div_eq_inv_mul]

end Step

end Magnetofluid
