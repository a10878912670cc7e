import Mathlib
import Magnetofluid.Proofs.Model.Direct

/-!
# Explicit rate and implicit step

The explicit rate and the residual of the implicit step are two evaluations of one system of equations.

* `Model.residual_psi_eq`, `Model.residual_w_eq`: off the essential nodes the residual is the mass matrix times the
  rate of the step less the explicit rate at its end.
* `Model.residual_phi_eq`: there it is the stiffness matrix times the stream function less the one that belongs to the
  vorticity.
* `Model.exists_start`: every state that obeys the constraint is the end of a step.
* `Model.implicitRate_of_stationary`: a state that the explicit rate leaves alone is its own backward-Euler step.
-/

namespace Magnetofluid

open Matrix

namespace State

variable {n : ℕ}

theorem ext_values {x y : State ℝ n} (hphi : x.phi.values = y.phi.values) (hpsi : x.psi.values = y.psi.values)
    (hw : x.w.values = y.w.values) : x = y := by
  obtain ⟨phi, psi, w⟩ := x
  obtain ⟨phi', psi', w'⟩ := y
  obtain rfl := Vec.values_injective hphi
  obtain rfl := Vec.values_injective hpsi
  obtain rfl := Vec.values_injective hw
  rfl

theorem eq_zeros_iff {x : State ℝ n} :
    x = zeros n ↔ x.phi.values = 0 ∧ x.psi.values = 0 ∧ x.w.values = 0 := by
  constructor
  · rintro rfl
    exact ⟨Vec.values_zeros, Vec.values_zeros, Vec.values_zeros⟩
  · rintro ⟨hphi, hpsi, hw⟩
    exact ext_values (hphi.trans Vec.values_zeros.symm) (hpsi.trans Vec.values_zeros.symm)
      (hw.trans Vec.values_zeros.symm)

theorem toVec_zeros : (zeros n : State ℝ n).toVec = Vec.zeros (3 * n) := by
  unfold zeros toVec Vec.stack
  ext i hi
  simp [Vector.getElem_append]

end State

namespace Model

variable {m : Mesh ℝ} {ess : Essential m.nodes} {viscosity resistivity : ℝ} {model : Model ℝ m.nodes}
  (hops : model.toOperators = .ofMesh m ess viscosity resistivity)

/-! ### The blocks of the residual -/

section Blocks

variable {s : Step ℝ m.nodes} {forcing : Option (Vec ℝ m.nodes)} {flow field : Sparse ℝ m.nodes m.nodes}
  {j : Vec ℝ m.nodes} {x r : State ℝ m.nodes}
include hops

theorem residual_phi_eq {phi : Vec ℝ m.nodes} (hphi : model.stiffnessSystem.mulVec phi = model.potentialLoad x.w) :
    (s.residual model.toOperators forcing flow field j x).phi.values =
      ess.inner (model.stiffnessSystem.toMatrix *ᵥ (x.phi.values - phi.values)) := by
  have hess := Operators.ess_eq hops
  have hload := congrArg Vec.values hphi
  unfold potentialLoad at hload
  rw [Sparse.values_mulVec, Vec.values_zeroOn, Vec.values_neg, Sparse.values_mulVec, hess] at hload
  rw [values_residual_phi hops, Matrix.mulVec_sub, hload, Essential.inner_sub_inner, sub_neg_eq_add]

theorem residual_psi_eq (h : m.Proper) (hrate : model.IsRate forcing x j r) :
    (s.residual model.toOperators forcing (model.bracket x.phi) field j x).psi.values =
      ess.inner (model.massSystem.toMatrix *ᵥ ((s.rate s.start.psi x.psi).values - r.psi.values)) := by
  have hess := Operators.ess_eq hops
  have hload := congrArg Vec.values hrate.psi
  rw [Sparse.values_mulVec, Vec.values_zeroOn, hess] at hload
  rw [values_residual_psi h hops, Matrix.mulVec_sub, hload, Essential.inner_sub_inner]

theorem residual_w_eq (h : m.Proper) (hrate : model.IsRate forcing x j r) :
    (s.residual model.toOperators forcing (model.bracket x.phi) (model.bracket x.psi) j x).w.values =
      ess.inner (model.massSystem.toMatrix *ᵥ ((s.rate s.start.w x.w).values - r.w.values)) := by
  have hess := Operators.ess_eq hops
  have hload := congrArg Vec.values hrate.w
  rw [Sparse.values_mulVec, Vec.values_zeroOn, hess] at hload
  rw [values_residual_w h hops, Matrix.mulVec_sub, hload, Essential.inner_sub_inner]

end Blocks

/-! ### One system of equations -/

section Blocks

variable {dt : Number ℝ} {start k y r : State ℝ m.nodes} {phi : Vec ℝ m.nodes} {mem mem₁ mem₂ mem₃ : Memory ℝ m.nodes}
include hops

/-- The blocks of the residual of a step by the explicit rate and the stream function, if the step has forcing and
current of the model. -/
theorem residualOf_blocks (h : m.Proper) (hsolves : model.ExactSolves) (hforcing : mem.step.forcing = mem.forcing)
    (hprescribed : mem.prescribed = some mem.current) (hy : (model.residualOf dt start k).run mem = .ok y mem₁)
    (hr : (model.rate k).run mem = .ok r mem₂) (hphi : (model.potential k).run mem = .ok phi mem₃) :
    y.phi.values = ess.inner (model.stiffnessSystem.toMatrix *ᵥ fun l => k.phi.values l - phi.values l) ∧
      y.psi.values = ess.inner (model.massSystem.toMatrix *ᵥ fun l =>
        (k.psi.values l - start.psi.values l) / dt.toScalar - r.psi.values l) ∧
      y.w.values = ess.inner (model.massSystem.toMatrix *ᵥ fun l =>
        (k.w.values l - start.w.values l) / dt.toScalar - r.w.values l) := by
  have hsystem := Operators.massSystem_eq hops
  have hdefinite := Operators.mass_definite hops h
  obtain ⟨-, boundary, hsome, hcurrent, hvalue⟩ := residualOf_ok hsolves.mass.sound hsystem hy
  obtain ⟨hj, hrate, -⟩ := rate_ok hsolves.mass.sound hsystem hr
  obtain ⟨hload, -⟩ := potential_ok (fun solve hsolve => (hsolves.stiffness solve hsolve).sound) hphi
  -- one forcing and one current in both evaluations
  obtain rfl : mem.current = boundary := Option.some.inj (hprescribed.symm.trans hsome)
  rw [hcurrent.unique hdefinite hj fun _ _ => rfl, hforcing] at hvalue
  have hstep : ∀ a b c : Vec ℝ m.nodes, (fun l => (b.values l - a.values l) / dt.toScalar - c.values l) =
      (Step.rate ⟨dt, start⟩ a b).values - c.values := by
    intro a b c
    funext l
    rw [Step.values_rate, div_eq_inv_mul]
    rfl
  rw [hvalue, hstep, hstep]
  exact ⟨residual_phi_eq hops hload, residual_psi_eq hops h hrate, residual_w_eq hops h hrate⟩

end Blocks

/-! ### Starts and ends of steps -/

variable {mem mem' : Memory ℝ m.nodes} {x : State ℝ m.nodes}
include hops

/-- The residual vanishes at a state that was reached at its own rate and obeys the constraint. -/
theorem residual_eq_zeros (h : m.Proper) {s : Step ℝ m.nodes} {forcing : Option (Vec ℝ m.nodes)} {j : Vec ℝ m.nodes}
    {r : State ℝ m.nodes} (hrate : model.IsRate forcing x j r) (hconstraint : model.Constrained x)
    (hpsi : (s.rate s.start.psi x.psi).values = r.psi.values) (hw : (s.rate s.start.w x.w).values = r.w.values) :
    s.residual model.toOperators forcing (model.bracket x.phi) (model.bracket x.psi) j x = State.zeros m.nodes := by
  have hess := Operators.ess_eq hops
  refine State.eq_zeros_iff.2 ⟨?_, ?_, ?_⟩
  · rw [values_residual_phi hops]
    refine Essential.inner_eq_zero_iff.2 fun i hi => ?_
    have hrow := hconstraint i (by rwa [hess])
    rwa [Vec.values_add, Sparse.values_mulVec, Sparse.values_mulVec] at hrow
  · rw [residual_psi_eq hops h hrate, hpsi, sub_self, Matrix.mulVec_zero, Essential.inner_zero]
  · rw [residual_w_eq hops h hrate, hw, sub_self, Matrix.mulVec_zero, Essential.inner_zero]

/-- Every state that obeys the constraint is the end of a backward-Euler step of any size. -/
theorem exists_start (h : m.Proper) (hmass : Krylov.Exact model.massSystem model.massSolve)
    (mem : Memory ℝ m.nodes) (hsolvable : mem.solvable = true) (hforcing : mem.step.forcing = mem.forcing)
    (hboundary : mem.step.boundary = .model) {dt : Number ℝ} (hdt : 0 < dt.toScalar)
    (hconstraint : model.Constrained x) :
    ∃ psi₀ w₀, (∀ i ∈ ess, x.psi.values i = psi₀.values i ∧ x.w.values i = w₀.values i) ∧
      ∀ phi₀, ∃ mem', (model.residualOf dt ⟨phi₀, psi₀, w₀⟩ x).run mem = .ok (State.zeros m.nodes) mem' := by
  have hess := Operators.ess_eq hops
  have hsystem := Operators.massSystem_eq hops
  have hdefinite := Operators.mass_definite hops h
  obtain ⟨r, mem₁, hr⟩ := exists_rate hmass hsolvable x
  obtain ⟨hj, hrate, -⟩ := rate_ok hmass.sound hsystem hr
  have hzero := isRate_zeroOn hsystem hrate
  rw [hess] at hzero
  refine ⟨Vec.subScaled x.psi dt.toScalar r.psi, Vec.subScaled x.w dt.toScalar r.w, fun i hi => ⟨?_, ?_⟩,
    fun phi₀ => ?_⟩
  · have hpsi : r.psi.values i = 0 := hzero .flux i hi
    simp [hpsi]
  · have hw : r.w.values i = 0 := hzero .vorticity i hi
    simp [hw]
  have hprescribed : mem.prescribed = some mem.current := by
    unfold Memory.prescribed
    rw [hboundary]
  obtain ⟨y, mem₂, hy⟩ := exists_residualOf hmass hsolvable hprescribed hdt
    ⟨phi₀, Vec.subScaled x.psi dt.toScalar r.psi, Vec.subScaled x.w dt.toScalar r.w⟩ x
  obtain ⟨-, boundary, hsome, hcurrent, hvalue⟩ := residualOf_ok hmass.sound hsystem hy
  obtain rfl : mem.current = boundary := Option.some.inj (hprescribed.symm.trans hsome)
  have hback : ∀ a k : Vec ℝ m.nodes, (Step.rate ⟨dt, ⟨phi₀, Vec.subScaled x.psi dt.toScalar r.psi,
      Vec.subScaled x.w dt.toScalar r.w⟩⟩ (Vec.subScaled a dt.toScalar k) a).values = k.values := by
    intro a k
    rw [Step.values_rate, Vec.values_subScaled, sub_sub_cancel, smul_smul, inv_mul_cancel₀ hdt.ne', one_smul]
  rw [hcurrent.unique hdefinite hj fun _ _ => rfl, hforcing,
    residual_eq_zeros hops h hrate hconstraint (hback _ _) (hback _ _)] at hvalue
  exact ⟨mem₂, hvalue ▸ hy⟩

/-- A state without rates that obeys the constraint is its own backward-Euler step, which takes no iteration. -/
theorem implicitRate_of_stationary (h : m.Proper) (hmass : Krylov.Exact model.massSystem model.massSolve)
    (hsolvable : mem.solvable = true) (hforcing : mem.step.forcing = mem.forcing)
    (hboundary : mem.step.boundary = .model) {rtol atol : ℝ} {verbose : Bool} (hrtol : model.newton.rtol = .ok rtol)
    (hatol : model.newton.atol = .ok atol) (hverbose : model.newton.verbose = .ok verbose) {dt : Number ℝ}
    (hdt : 0 < dt.toScalar) (hrate : (model.rate x).run mem = .ok (State.zeros m.nodes) mem')
    (hconstraint : model.Constrained x) :
    ∃ after, (model.implicitRate dt x).run mem = .ok (State.zeros m.nodes) after ∧ after.newton.converged = true ∧
      after.newton.iterations = 0 := by
  have hsystem := Operators.massSystem_eq hops
  have hdefinite := Operators.mass_definite hops h
  obtain ⟨hj, hrates, -⟩ := rate_ok hmass.sound hsystem hrate
  let mem₁ : Memory ℝ m.nodes := { mem with step.step := some ⟨dt, x⟩ }
  have hprescribed : mem₁.prescribed = some mem.current := by
    show Memory.prescribed _ = _
    unfold Memory.prescribed
    rw [hboundary]
  obtain ⟨y, mem₂, hy⟩ := exists_residual mem₁ hmass hsolvable rfl hprescribed x
  obtain ⟨step, boundary, hstep, hsome, hcurrent, hvalue, -⟩ := residual_ok hmass.sound hsystem hy
  obtain rfl : ⟨dt, x⟩ = step := Option.some.inj hstep
  obtain rfl : mem.current = boundary := Option.some.inj (hprescribed.symm.trans hsome)
  have hunique : mem₂.step.current = mem'.current := hcurrent.unique hdefinite hj fun _ _ => rfl
  have hzero : y = State.zeros m.nodes := by
    rw [hvalue, hunique]
    show Step.residual _ _ mem.step.forcing _ _ _ _ = _
    rw [hforcing]
    have hrest : ∀ a : Vec ℝ m.nodes, (Step.rate ⟨dt, x⟩ a a).values = (Vec.zeros m.nodes).values := by
      intro a
      rw [Step.values_rate, sub_self, smul_zero, Vec.values_zeros]
    exact residual_eq_zeros hops h hrates hconstraint (hrest _) (hrest _)
  have hresidual : (model.system.residual x.toVec).run mem₁ = .ok (Vec.zeros (3 * m.nodes)) mem₂ := by
    show EStateM.run (do return (← model.residual (State.ofVec x.toVec)).toVec) mem₁ = _
    rw [State.ofVec_toVec]
    exact run_bind_eq_ok.2 ⟨y, mem₂, hy, run_pure_eq_ok.2 ⟨by rw [hzero, State.toVec_zeros], rfl⟩⟩
  obtain ⟨p, hsolve, hconverged, hiterations⟩ := Newton.solve_of_norm_eq_zero model.linear mem₁.newton hresidual
    Vec.norm_zeros hrtol hatol hverbose
  have hrest : stepRate dt x x = State.zeros m.nodes := by
    refine State.ext_values ?_ ?_ ?_ <;>
      simp [stepRate, State.zeros]
  exact ⟨{ mem₂ with newton := p }, implicitRate_eq_ok.2
    ⟨hdt, x, solveStep_eq_ok.2 ⟨_, hsolve, (State.ofVec_toVec x).symm, rfl⟩, hconverged, hrest.symm⟩, hconverged,
    hiterations⟩

end Model

end Magnetofluid
