import Mathlib
import Magnetofluid.Proofs.Form.Bracket
import Magnetofluid.Proofs.Model.Agreement
import Magnetofluid.Proofs.Model.Direct

/-!
# Energy

The energy of a flow inside walls, where all nodes of the boundary are essential.  Convection moves energy from one
field to the other and changes nothing of their sum, because the bracket is skew.

* `Form.energy_balance`: what the sum loses at any moment is what viscosity and resistivity take and the forcing takes
  out.
* `Model.rate_energy_balance`: the explicit rate has this balance.
* `Model.residual_zero_energy_le`: a backward-Euler step loses at least as much energy as viscosity and resistivity take
  at its end, whatever its size.
-/

namespace Magnetofluid

open Matrix

namespace Form

variable {m : Mesh ℝ} {ess : Essential m.nodes}

/-- The balance of energy.  The current vanishes on the boundary, as do stream function and vorticity, and the values
of the flux stay what they are there. -/
theorem energy_balance (h : m.Proper) (hess : ess.IsBoundary) {viscosity resistivity : ℝ}
    {phi psi : Vec ℝ m.nodes} {w j dpsi load e : Fin m.nodes → ℝ} (hphi : ess.ZeroOn phi.values) (hw : ess.ZeroOn w)
    (hj : ess.ZeroOn j) (hdpsi : ess.ZeroOn dpsi)
    (hcurrent : ∀ i ∉ ess, ((mass m).toMatrix *ᵥ j) i = (-((diffusion m 1).toMatrix *ᵥ psi.values)) i)
    (hconstraint : ∀ i ∉ ess, ((diffusion m 1).toMatrix *ᵥ phi.values) i = (-((mass m).toMatrix *ᵥ w)) i)
    (hflux : ∀ i ∉ ess, ((mass m).toMatrix *ᵥ dpsi) i = (-((bracket m phi).toMatrix *ᵥ psi.values) -
      resistivity • (diffusion m 1).toMatrix *ᵥ psi.values - e) i)
    (hvorticity : ∀ i ∉ ess, load i = (-((bracket m phi).toMatrix *ᵥ w) -
      viscosity • (diffusion m 1).toMatrix *ᵥ w + (bracket m psi).toMatrix *ᵥ j) i) :
    psi.values ⬝ᵥ (diffusion m 1).toMatrix *ᵥ dpsi - phi.values ⬝ᵥ load =
      -(viscosity * (w ⬝ᵥ (mass m).toMatrix *ᵥ w)) - resistivity * (j ⬝ᵥ (mass m).toMatrix *ᵥ j) + j ⬝ᵥ e := by
  have hwall : ∀ k, m.OnBoundary k → phi.values k = 0 := fun k hk => hphi k ((hess k).2 hk)
  -- the Lorentz force gives the flow what induction takes from the field
  have hexchange : phi.values ⬝ᵥ (bracket m psi).toMatrix *ᵥ j = j ⬝ᵥ (bracket m phi).toMatrix *ᵥ psi.values := by
    rw [bracket_skew h psi hwall, bracket_swap h psi phi, neg_neg]
  have hconvection : phi.values ⬝ᵥ (bracket m phi).toMatrix *ᵥ w = 0 := by
    rw [bracket_skew h phi hwall, bracket_self h, neg_zero]
  have hviscous : phi.values ⬝ᵥ (diffusion m 1).toMatrix *ᵥ w = -(w ⬝ᵥ (mass m).toMatrix *ᵥ w) := by
    rw [stiffness_symm h, hw.dotProduct_congr hconstraint, dotProduct_neg]
  have hohmic : j ⬝ᵥ (diffusion m 1).toMatrix *ᵥ psi.values = -(j ⬝ᵥ (mass m).toMatrix *ᵥ j) := by
    rw [hj.dotProduct_congr hcurrent, dotProduct_neg, neg_neg]
  have hmagnetic : psi.values ⬝ᵥ (diffusion m 1).toMatrix *ᵥ dpsi = -(j ⬝ᵥ (mass m).toMatrix *ᵥ dpsi) := by
    rw [stiffness_symm h, mass_symm, hdpsi.dotProduct_congr hcurrent, dotProduct_neg, neg_neg]
  rw [hmagnetic, hj.dotProduct_congr hflux, hphi.dotProduct_congr hvorticity, dotProduct_sub, dotProduct_sub,
    dotProduct_add, dotProduct_sub, dotProduct_neg, dotProduct_neg, dotProduct_smul, dotProduct_smul, hexchange,
    hconvection, hviscous, hohmic, smul_eq_mul, smul_eq_mul]
  ring

/-- The balance of energy over a backward-Euler step from `phi₀`, `psi₀` and `w₀`. -/
theorem energy_step (h : m.Proper) (hess : ess.IsBoundary) {viscosity resistivity dt : ℝ} (hdt : dt ≠ 0)
    {phi psi : Vec ℝ m.nodes} {w j phi₀ psi₀ w₀ : Fin m.nodes → ℝ} (hphi : ess.ZeroOn phi.values) (hw : ess.ZeroOn w)
    (hj : ess.ZeroOn j) (hpsi : ess.ZeroOn (psi.values - psi₀))
    (hcurrent : ∀ i ∉ ess, ((mass m).toMatrix *ᵥ j) i = (-((diffusion m 1).toMatrix *ᵥ psi.values)) i)
    (hconstraint : ∀ i ∉ ess, ((diffusion m 1).toMatrix *ᵥ phi.values) i = (-((mass m).toMatrix *ᵥ w)) i)
    (hconstraint₀ : ∀ i ∉ ess, ((diffusion m 1).toMatrix *ᵥ phi₀) i = (-((mass m).toMatrix *ᵥ w₀)) i)
    (hflux : ∀ i ∉ ess, ((mass m).toMatrix *ᵥ dt⁻¹ • (psi.values - psi₀)) i =
      (-((bracket m phi).toMatrix *ᵥ psi.values) - resistivity • (diffusion m 1).toMatrix *ᵥ psi.values) i)
    (hvorticity : ∀ i ∉ ess, ((mass m).toMatrix *ᵥ dt⁻¹ • (w - w₀)) i = (-((bracket m phi).toMatrix *ᵥ w) -
      viscosity • (diffusion m 1).toMatrix *ᵥ w + (bracket m psi).toMatrix *ᵥ j) i) :
    phi.values ⬝ᵥ (diffusion m 1).toMatrix *ᵥ (phi.values - phi₀) +
        psi.values ⬝ᵥ (diffusion m 1).toMatrix *ᵥ (psi.values - psi₀) =
      -(dt * (viscosity * (w ⬝ᵥ (mass m).toMatrix *ᵥ w) + resistivity * (j ⬝ᵥ (mass m).toMatrix *ᵥ j))) := by
  have hbalance := energy_balance h hess (e := 0) hphi hw hj (hpsi.smul dt⁻¹) hcurrent hconstraint
    (fun i hi => (hflux i hi).trans (by rw [sub_zero])) hvorticity
  have hkinetic : phi.values ⬝ᵥ (diffusion m 1).toMatrix *ᵥ (phi.values - phi₀) =
      -(phi.values ⬝ᵥ (mass m).toMatrix *ᵥ (w - w₀)) := by
    rw [← dotProduct_neg]
    refine hphi.dotProduct_congr fun i hi => ?_
    rw [Matrix.mulVec_sub, Matrix.mulVec_sub, Pi.sub_apply, hconstraint i hi, hconstraint₀ i hi]
    simp only [Pi.neg_apply, Pi.sub_apply]
    ring
  rw [Matrix.mulVec_smul, Matrix.mulVec_smul, dotProduct_smul, dotProduct_smul, dotProduct_zero, smul_eq_mul,
    smul_eq_mul] at hbalance
  rw [hkinetic]
  have hdt' : dt * dt⁻¹ = 1 := mul_inv_cancel₀ hdt
  linear_combination dt * hbalance - (psi.values ⬝ᵥ (diffusion m 1).toMatrix *ᵥ (psi.values - psi₀) -
    phi.values ⬝ᵥ (mass m).toMatrix *ᵥ (w - w₀)) * hdt'

end Form

namespace Operators

variable {m : Mesh ℝ} {ess : Essential m.nodes} {viscosity resistivity : ℝ} {x : State ℝ m.nodes}

/-- Where stream function and vorticity vanish on the essential nodes, the constraint binds them by the matrices before
elimination. -/
theorem Constrained.row (hx : (ofMesh m ess viscosity resistivity).Constrained x) (hphi : ess.ZeroOn x.phi.values)
    (hw : ess.ZeroOn x.w.values) : ∀ i ∉ ess,
      ((Form.diffusion m 1).toMatrix *ᵥ x.phi.values) i = (-((Form.mass m).toMatrix *ᵥ x.w.values)) i := by
  intro i hi
  have hrow := hx i hi
  simp only [ofMesh, Vec.values_add, Sparse.values_mulVec, Pi.add_apply] at hrow
  rw [Sparse.eliminate_mulVec_of_zeroOn _ _ hphi hi, Sparse.eliminate_mulVec_of_zeroOn _ _ hw hi] at hrow
  exact eq_neg_of_add_eq_zero_left hrow

/-- Inside walls the boundary flux does not enter the system of the current. -/
theorem IsCurrent.row {boundary psi j : Vec ℝ m.nodes} (hess : ess.IsBoundary)
    (hj : (ofMesh m ess viscosity resistivity).IsCurrent boundary psi j) : ∀ i ∉ ess,
      ((Form.mass m).toMatrix *ᵥ j.values) i = (-((Form.diffusion m 1).toMatrix *ᵥ psi.values)) i := by
  intro i hi
  have hrow := hj.2 i hi
  have hsingle : ∀ k, m.OnBoundary k → (Pi.single i 1 : Fin m.nodes → ℝ) k = 0 := by
    intro k hk
    have hne : k ≠ i := fun hki => hi ((hess i).2 (hki ▸ hk))
    exact Pi.single_eq_of_ne hne 1
  have hflux := Form.boundaryFlux_form hsingle psi.values
  rw [single_one_dotProduct] at hflux
  simp only [ofMesh, Sparse.toMatrix_sub, Matrix.sub_mulVec, Pi.sub_apply] at hrow
  rw [hrow, hflux, sub_zero]
  rfl

end Operators

namespace Model

variable {m : Mesh ℝ} {ess : Essential m.nodes} {viscosity resistivity : ℝ} {model : Model ℝ m.nodes}
  {mem mem' : Memory ℝ m.nodes}

/-! ### Explicit rate -/

/-- **Balance of energy of the explicit rate.**  With `k` the rate of a state `x` whose stream function and vorticity
vanish on the boundary, and `j` its current, the magnetic energy grows by `psi · K k.psi` and the kinetic energy by
`-phi · M k.w`. -/
theorem rate_energy_balance (h : m.Proper) (hess : ess.IsBoundary)
    (hops : model.toOperators = .ofMesh m ess viscosity resistivity)
    (hmass : Krylov.Exact model.massSystem model.massSolve) (hsolvable : mem.solvable = true)
    (hboundary : ess.ZeroOn mem.current.values) {x : State ℝ m.nodes} (hphi : ess.ZeroOn x.phi.values)
    (hw : ess.ZeroOn x.w.values) (hconstraint : model.Constrained x) :
    ∃ k mem', (model.rate x).run mem = .ok k mem' ∧ k.phi = Vec.zeros m.nodes ∧
      Vec.dot x.psi (model.stiffness.mulVec k.psi) - Vec.dot x.phi (model.massSystem.mulVec k.w) =
        -(viscosity * Vec.dot x.w (model.mass.mulVec x.w)) -
          resistivity * Vec.dot mem'.current (model.mass.mulVec mem'.current) +
          Vec.dot mem'.current (mem.forcing.getD (Vec.zeros m.nodes)) ∧
      (viscosity = 0 → resistivity = 0 → mem.forcing = none →
        Vec.dot x.psi (model.stiffness.mulVec k.psi) - Vec.dot x.phi (model.massSystem.mulVec k.w) = 0) := by
  obtain ⟨k, mem', hk⟩ := exists_rate hmass hsolvable x
  have hsystem := Operators.massSystem_eq hops
  obtain ⟨hj, hrate, -⟩ := rate_ok hmass.sound hsystem hk
  obtain ⟨hzero, hflux, hvorticity⟩ := hrate
  rw [hops] at hconstraint hj
  have hpsi := values_fluxLoad h hops (model.bracket x.phi) mem.forcing x.psi
  have hload := values_vorticityLoad h hops (model.bracket x.phi) (model.bracket x.psi) mem'.current x.w
  rw [hops] at hflux hpsi hload
  obtain ⟨hdpsi, hfluxRow⟩ := (Sparse.eliminate_mulVec_eq_zeroOn_iff _ _ _ _).1 hflux
  have hvorticityRow : ∀ i ∉ ess, ((Operators.ofMesh m ess viscosity resistivity).massSystem.mulVec k.w).values i =
      (-((Form.bracket m x.phi).toMatrix *ᵥ x.w.values) - viscosity • (Form.diffusion m 1).toMatrix *ᵥ x.w.values +
        (Form.bracket m x.psi).toMatrix *ᵥ mem'.current.values) i := by
    intro i hi
    rw [hops] at hvorticity
    rw [hvorticity, Vec.values_zeroOn]
    exact (Essential.inner_of_not_mem hi).trans (congrFun hload i)
  have hj0 : ess.ZeroOn mem'.current.values := fun i hi => (hj.1 i hi).trans (hboundary i hi)
  have hbalance := Form.energy_balance h hess hphi hw hj0 hdpsi (hj.row hess)
    (hconstraint.row hphi hw) (fun i hi => (hfluxRow i hi).trans (congrFun hpsi i)) hvorticityRow
  have hvalue : Vec.dot x.psi (model.stiffness.mulVec k.psi) - Vec.dot x.phi (model.massSystem.mulVec k.w) =
      -(viscosity * Vec.dot x.w (model.mass.mulVec x.w)) -
        resistivity * Vec.dot mem'.current (model.mass.mulVec mem'.current) +
        Vec.dot mem'.current (mem.forcing.getD (Vec.zeros m.nodes)) := by
    rw [hops]
    simp only [Vec.dot_eq, Sparse.values_mulVec] at hbalance ⊢
    exact hbalance
  refine ⟨k, mem', hk, hzero, hvalue, fun hviscosity hresistivity hforcing => ?_⟩
  rw [hvalue, hviscosity, hresistivity, hforcing]
  simp [Vec.dot_eq]

theorem rate_energy_balance_vortex : ∃ phi k mem', square.Constrained ⟨phi, ramp, vortex⟩ ∧
    (square.rate ⟨phi, ramp, vortex⟩).run forced = .ok k mem' ∧
      Vec.dot ramp (square.stiffness.mulVec k.psi) - Vec.dot phi (square.massSystem.mulVec k.w) =
        -(1 * Vec.dot vortex (square.mass.mulVec vortex)) -
          1 * Vec.dot mem'.current (square.mass.mulVec mem'.current) + Vec.dot mem'.current ramp := by
  obtain ⟨phi, hphi, hconstraint⟩ := exists_square_state
  obtain ⟨k, mem', hk, -, hvalue, -⟩ := rate_energy_balance (x := ⟨phi, ramp, vortex⟩) Mesh.unitSquare_proper
    (Essential.boundary_isBoundary _) rfl square_exactSolves.mass rfl forced_zeroOn hphi vortex_zeroOn hconstraint
  exact ⟨phi, k, mem', hconstraint, hk, hvalue⟩

/-! ### Backward-Euler step -/

/-- The energy of a field is convex. -/
theorem energy_sub_le (h : m.Proper) (hops : model.toOperators = .ofMesh m ess viscosity resistivity)
    (u v : Vec ℝ m.nodes) :
    model.energy u - model.energy v ≤ u.values ⬝ᵥ (Form.diffusion m 1).toMatrix *ᵥ (u.values - v.values) := by
  have hhalf : (0.5 : ℝ) = 1 / 2 := by norm_num
  have hpos := Form.stiffness_nonneg h (u.values - v.values)
  have hsymm := Form.stiffness_symm h u.values v.values
  simp only [Matrix.mulVec_sub, sub_dotProduct, dotProduct_sub] at hpos ⊢
  unfold energy
  rw [hops, Vec.dot_eq, Vec.dot_eq, Sparse.values_mulVec, Sparse.values_mulVec, hhalf]
  show 1 / 2 * (u.values ⬝ᵥ (Form.diffusion m 1).toMatrix *ᵥ u.values) -
    1 / 2 * (v.values ⬝ᵥ (Form.diffusion m 1).toMatrix *ᵥ v.values) ≤ _
  linarith

section Residual

variable {s : Step ℝ m.nodes} {forcing : Option (Vec ℝ m.nodes)} {flow field : Sparse ℝ m.nodes m.nodes}
  {j : Vec ℝ m.nodes} {x : State ℝ m.nodes}

theorem constrained_of_residual (hops : model.toOperators = .ofMesh m ess viscosity resistivity)
    (hzero : (s.residual model.toOperators forcing flow field j x).phi = Vec.zeros m.nodes) : model.Constrained x := by
  have hinner := values_residual_phi hops s forcing flow field j x
  rw [hzero, Vec.values_zeros] at hinner
  intro i hi
  rw [Vec.values_add, Sparse.values_mulVec, Sparse.values_mulVec]
  rw [hops] at hi
  exact Essential.inner_eq_zero_iff.1 hinner.symm i hi

/-- The rows off the boundary of a residual that vanishes, in which nothing of the elimination is left. -/
theorem rows_of_residual (h : m.Proper) (hops : model.toOperators = .ofMesh m ess viscosity resistivity)
    (hpsi : ess.ZeroOn (x.psi.values - s.start.psi.values)) (hw : ess.ZeroOn (x.w.values - s.start.w.values))
    (hzero : s.residual model.toOperators forcing flow field j x = State.zeros m.nodes) :
    (∀ i ∉ ess, ((Form.mass m).toMatrix *ᵥ s.dt.toScalar⁻¹ • (x.psi.values - s.start.psi.values)) i =
      (model.fluxLoad flow forcing x.psi).values i) ∧
    ∀ i ∉ ess, ((Form.mass m).toMatrix *ᵥ s.dt.toScalar⁻¹ • (x.w.values - s.start.w.values)) i =
      (model.vorticityLoad flow field j x.w).values i := by
  have hsystem : model.massSystem = (Form.mass m).eliminate ess := by rw [hops]; rfl
  have hflux := values_residual_psi h hops s forcing flow field j x
  have hvorticity := values_residual_w h hops s forcing flow field j x
  rw [hzero, hsystem, Step.values_rate] at hflux hvorticity
  exact ⟨fun i hi => Sparse.row_of_inner_eliminate_eq_zero _ _ (hpsi.smul _) (hflux.symm.trans Vec.values_zeros) hi,
    fun i hi => Sparse.row_of_inner_eliminate_eq_zero _ _ (hw.smul _) (hvorticity.symm.trans Vec.values_zeros) hi⟩

end Residual

/-- **Stability of the backward-Euler step.**  If the residual of the step of size `dt` from a state `x` vanishes at a
state `k` that agrees with `x` on the boundary, the energy of `k` is that of `x` at most, less what viscosity and
resistivity take at `k` in the time `dt`. -/
theorem residual_zero_energy_le (h : m.Proper) (hess : ess.IsBoundary)
    (hops : model.toOperators = .ofMesh m ess viscosity resistivity)
    (hmass : Krylov.Sound model.massSystem model.massSolve) (hforcing : mem.step.forcing = none)
    (hboundary : ∀ j, mem.prescribed = some j → ess.ZeroOn j.values) {dt : Number ℝ} {x k : State ℝ m.nodes}
    (hphi : ess.ZeroOn x.phi.values) (hw : ess.ZeroOn x.w.values) (hconstraint : model.Constrained x)
    (hsame : ∀ i ∈ ess, k.phi.values i = x.phi.values i ∧ k.psi.values i = x.psi.values i ∧
      k.w.values i = x.w.values i)
    (hresidual : (model.residualOf dt x k).run mem = .ok (State.zeros m.nodes) mem') :
    model.kineticEnergy k + model.magneticEnergy k ≤ model.kineticEnergy x + model.magneticEnergy x -
      dt.toScalar * (viscosity * Vec.dot k.w (model.mass.mulVec k.w) +
        resistivity * Vec.dot mem'.step.current (model.mass.mulVec mem'.step.current)) := by
  have hsystem := Operators.massSystem_eq hops
  obtain ⟨hdt, boundary, hprescribed, hj, hzero⟩ := residualOf_ok hmass hsystem hresidual
  have hkphi : ess.ZeroOn k.phi.values := fun i hi => (hsame i hi).1.trans (hphi i hi)
  have hkw : ess.ZeroOn k.w.values := fun i hi => (hsame i hi).2.2.trans (hw i hi)
  have hpsi : ess.ZeroOn (k.psi.values - x.psi.values) := fun i hi => sub_eq_zero.2 (hsame i hi).2.1
  have hdw : ess.ZeroOn (k.w.values - x.w.values) := fun i hi => sub_eq_zero.2 (hsame i hi).2.2
  have hkconstraint : model.Constrained k := constrained_of_residual hops (congrArg State.phi hzero).symm
  obtain ⟨hflux, hvorticity⟩ := rows_of_residual h hops hpsi hdw hzero.symm
  rw [values_fluxLoad h hops, hforcing, forcingValues_none, sub_zero] at hflux
  rw [values_vorticityLoad h hops] at hvorticity
  rw [hops] at hj hconstraint hkconstraint hflux hvorticity
  have hj0 : ess.ZeroOn mem'.step.current.values :=
    fun i hi => (hj.1 i hi).trans (hboundary boundary hprescribed i hi)
  have hstep := Form.energy_step h hess hdt.ne' hkphi hkw hj0 hpsi (hj.row hess) (hkconstraint.row hkphi hkw)
    (hconstraint.row hphi hw) hflux hvorticity
  have hkinetic := energy_sub_le h hops k.phi x.phi
  have hmagnetic := energy_sub_le h hops k.psi x.psi
  have hmassMatrix : model.mass = Form.mass m := by rw [hops]; rfl
  unfold kineticEnergy magneticEnergy
  rw [Vec.dot_eq, Vec.dot_eq, Sparse.values_mulVec, Sparse.values_mulVec, hmassMatrix]
  linarith

theorem residual_zero_energy_le_vortex : ∃ phi x mem', square.Constrained x ∧
    (square.residualOf (.int 1) x ⟨phi, ramp, vortex⟩).run (.fresh square) = .ok (State.zeros _) mem' ∧
      square.kineticEnergy ⟨phi, ramp, vortex⟩ + square.magneticEnergy ⟨phi, ramp, vortex⟩ ≤
        square.kineticEnergy x + square.magneticEnergy x - (Number.int 1).toScalar *
          (1 * Vec.dot vortex (square.mass.mulVec vortex) +
            1 * Vec.dot mem'.step.current (square.mass.mulVec mem'.step.current)) := by
  obtain ⟨phi, hphi, hend⟩ := exists_square_state
  have hdt : (0 : ℝ) < (Number.int 1).toScalar := by simp [Number.toScalar]
  obtain ⟨psi₀, w₀, hsame, hresidual⟩ := exists_start rfl Mesh.unitSquare_proper square_exactSolves.mass
    (.fresh square) rfl rfl rfl hdt hend
  obtain ⟨phi₀, hphi₀, hconstraint⟩ := exists_constrained square_exactSolves rfl psi₀ w₀
  obtain ⟨mem', hzero⟩ := hresidual phi₀
  refine ⟨phi, ⟨phi₀, psi₀, w₀⟩, mem', hconstraint, hzero, ?_⟩
  refine residual_zero_energy_le Mesh.unitSquare_proper (Essential.boundary_isBoundary _) rfl
    square_exactSolves.mass.sound rfl ?_ hphi₀ (fun i hi => ?_) hconstraint (fun i hi => ⟨?_, hsame i hi⟩) hzero
  · intro j hj i _
    obtain rfl := Option.some.inj hj
    exact congrFun Vec.values_zeros i
  · rw [← (hsame i hi).2]
    exact vortex_zeroOn i hi
  · rw [hphi i hi, hphi₀ i hi]

end Model

end Magnetofluid
