import Mathlib
import Magnetofluid.Proofs.Model.StepSystem
import Magnetofluid.Proofs.Model.Jacobian

/-!
# What the linearisation leaves out

The linearisation of a step holds the bracket of the stream function fixed and leaves out the force of the current.  The
rest of the residual is linear in the unknown, so that residual and linearisation differ by exactly those two terms, for
increments of any size.

* `Step.gradient_mulVec_inner`: the rows of the linearisation off the essential nodes.
* `Operators.remainder`: the terms that are left out.
* `Model.residual_sub_residual`: the difference of two residuals, by the linearisation and the remainder.
* `Model.residual_remainder`: the same of the evaluations of a model, and central differences at rest.
-/

namespace Magnetofluid

open Matrix

variable {n : ℕ}

namespace State

theorem block_ofVec_add (x y : Vec ℝ (3 * n)) (b : Block) :
    (ofVec (x + y)).block b = (ofVec x).block b + (ofVec y).block b := by
  refine Vec.values_injective (funext fun i => ?_)
  rw [← values_place, Vec.values_add, Vec.values_add, Pi.add_apply, Pi.add_apply, values_place, values_place]

theorem block_ofVec_scale (c : ℝ) (x : Vec ℝ (3 * n)) (b : Block) :
    (ofVec (Vec.scale c x)).block b = Vec.scale c ((ofVec x).block b) := by
  refine Vec.values_injective (funext fun i => ?_)
  rw [← values_place, Vec.values_scale, Vec.values_scale, Pi.smul_apply, Pi.smul_apply, values_place]

end State

namespace Step

variable (s : Step ℝ n) (ops : Operators ℝ n) (flow : Sparse ℝ n n)

/-- Off the essential nodes the linearisation acts by its diagonal blocks, and takes vorticity to the constraint. -/
theorem gradient_mulVec_inner (v : Vec ℝ (3 * n)) (b : Block) {i : Fin n} (hi : i ∉ ops.ess) :
    ((s.gradient ops flow).mulVec v).values (State.place b i) =
      ((s.diagonalBlock ops flow b).toMatrix *ᵥ ((State.ofVec v).block b).values +
        if b = .potential then ops.massSystem.toMatrix *ᵥ (State.ofVec v).w.values else 0) i := by
  cases b with
  | potential =>
    rw [gradient_mulVec_potential s ops flow v hi, Vec.values_add, Sparse.values_mulVec, Sparse.values_mulVec,
      if_pos rfl]
    rfl
  | flux =>
    rw [gradient_mulVec_diagonal s ops flow v .flux nofun, Sparse.replaceRows_mulVec_of_not_mem _ _ _ _ hi,
      Sparse.values_mulVec, if_neg nofun, add_zero]
  | vorticity =>
    rw [gradient_mulVec_diagonal s ops flow v .vorticity nofun, Sparse.replaceRows_mulVec_of_not_mem _ _ _ _ hi,
      Sparse.values_mulVec, if_neg nofun, add_zero]

theorem entry_gradient_of_mem (b : Block) {i : Fin n} (hi : i ∈ ops.ess) (k : Fin (3 * n)) :
    (s.gradient ops flow).entry (State.place b i) k = if State.place b i = k then 1 else 0 := by
  refine (Sparse.toMatrix_replaceRows _ _ _ k).trans ?_
  rw [if_pos (place_mem_essential.2 hi)]

end Step

theorem Form.transport_mulVec {m : Mesh ℝ} {ess : Essential m.nodes} {viscosity resistivity : ℝ} (h : m.Proper)
    (s : Step ℝ m.nodes) (flow : Sparse ℝ m.nodes m.nodes) (c : ℝ) (z : Fin m.nodes → ℝ) :
    (s.transport (.ofMesh m ess viscosity resistivity) flow (Operators.diffusion? m c)).toMatrix *ᵥ z =
      s.dt.toScalar⁻¹ • ((mass m).eliminate ess).toMatrix *ᵥ z + flow.toMatrix *ᵥ z +
        c • (diffusion m 1).toMatrix *ᵥ z := by
  unfold Step.transport Operators.diffusion?
  by_cases hc : c = 0
  · simp [hc, Operators.ofMesh, Matrix.add_mulVec, Matrix.smul_mulVec]
  · simp [hc, Operators.ofMesh, Matrix.add_mulVec, Matrix.smul_mulVec, diffusion_mulVec h c]

namespace Operators

/-- What the linearisation at a state leaves out of the change of the residual along an increment, where the currents
of the two fluxes are `j` and `j'`: convection along the increment of the stream function, and the change of the force
of the current. -/
noncomputable def remainder (ops : Operators ℝ n) (x d : State ℝ n) (j j' : Vec ℝ n) : State ℝ n where
  phi := Vec.zeros n
  psi := (ops.bracket d.phi).mulVec (x.psi + d.psi)
  w := (ops.bracket d.phi).mulVec (x.w + d.w) - ((ops.bracket (x.psi + d.psi)).mulVec j' - (ops.bracket x.psi).mulVec j)

/-- The current of the opposite flux is the opposite current, if none is prescribed. -/
theorem IsCurrent.neg {ops : Operators ℝ n} {boundary psi psi' j j' : Vec ℝ n}
    (hmass : ops.ess.Definite ops.mass.toMatrix) (hzero : ops.ess.ZeroOn boundary.values)
    (hpsi : psi'.values = -psi.values) (hj : ops.IsCurrent boundary psi j) (hj' : ops.IsCurrent boundary psi' j') :
    j'.values = -j.values := by
  have hneg : ops.IsCurrent boundary psi' (-j) := by
    refine ⟨fun i hi => ?_, fun i hi => ?_⟩
    · rw [Vec.values_neg, Pi.neg_apply, hj.1 i hi, hzero i hi, neg_zero]
    · rw [Vec.values_neg, hpsi, mulVec_neg, mulVec_neg, Pi.neg_apply, Pi.neg_apply, hj.2 i hi]
  rw [hj'.unique hmass hneg fun _ _ => rfl, Vec.values_neg]

end Operators

namespace Model

section Remainder

variable {m : Mesh ℝ} (h : m.Proper) {ess : Essential m.nodes} {viscosity resistivity : ℝ} {model : Model ℝ m.nodes}
  (hops : model.toOperators = .ofMesh m ess viscosity resistivity) (s : Step ℝ m.nodes)
  (forcing : Option (Vec ℝ m.nodes))

/-- The residual of a step at a state whose flux has a given current. -/
noncomputable def residualAt (model : Model ℝ n) (s : Step ℝ n) (forcing : Option (Vec ℝ n)) (j : Vec ℝ n)
    (x : State ℝ n) : State ℝ n :=
  s.residual model.toOperators forcing (model.bracket x.phi) (model.bracket x.psi) j x

include h hops

theorem diagonalBlock_flux_mulVec (flow : Sparse ℝ m.nodes m.nodes) (z : Fin m.nodes → ℝ) :
    (s.diagonalBlock model.toOperators flow .flux).toMatrix *ᵥ z =
      s.dt.toScalar⁻¹ • model.massSystem.toMatrix *ᵥ z + flow.toMatrix *ᵥ z +
        resistivity • (Form.diffusion m 1).toMatrix *ᵥ z := by
  rw [hops]
  exact Form.transport_mulVec h s flow resistivity z

theorem diagonalBlock_vorticity_mulVec (flow : Sparse ℝ m.nodes m.nodes) (z : Fin m.nodes → ℝ) :
    (s.diagonalBlock model.toOperators flow .vorticity).toMatrix *ᵥ z =
      s.dt.toScalar⁻¹ • model.massSystem.toMatrix *ᵥ z + flow.toMatrix *ᵥ z +
        viscosity • (Form.diffusion m 1).toMatrix *ᵥ z := by
  rw [hops]
  exact Form.transport_mulVec h s flow viscosity z

/-- The change of the residual along an increment is what the linearisation says and the remainder. -/
theorem residual_sub_residual (x d : Vec ℝ (3 * m.nodes)) (j j' : Vec ℝ m.nodes) (b : Block) {i : Fin m.nodes}
    (hi : i ∉ model.ess) :
    ((model.residualAt s forcing j' (State.ofVec (x + d))).block b).values i -
        ((model.residualAt s forcing j (State.ofVec x)).block b).values i =
      ((s.gradient model.toOperators (model.bracket (State.ofVec x).phi)).mulVec d).values (State.place b i) +
        ((model.remainder (State.ofVec x) (State.ofVec d) j j').block b).values i := by
  have hess : model.ess = ess := Operators.ess_eq hops
  have hphi : (State.ofVec (x + d)).phi = (State.ofVec x).phi + (State.ofVec d).phi :=
    State.block_ofVec_add x d .potential
  have hpsi : (State.ofVec (x + d)).psi = (State.ofVec x).psi + (State.ofVec d).psi := State.block_ofVec_add x d .flux
  have hw : (State.ofVec (x + d)).w = (State.ofVec x).w + (State.ofVec d).w := State.block_ofVec_add x d .vorticity
  have hbracket : model.bracket = Form.bracket m := by rw [hops]; rfl
  have hbracketSum : ∀ y : Vec ℝ m.nodes, (model.bracket (State.ofVec (x + d)).phi).toMatrix *ᵥ y.values =
      (model.bracket (State.ofVec x).phi).toMatrix *ᵥ y.values +
        (model.bracket (State.ofVec d).phi).toMatrix *ᵥ y.values := by
    rw [hphi, hbracket]
    exact Form.bracket_add_mulVec h _ _
  rw [Step.gradient_mulVec_inner s model.toOperators _ d b hi]
  rw [hess] at hi
  unfold residualAt
  cases b with
  | potential =>
    simp only [State.block, values_residual_phi hops, Essential.inner_of_not_mem hi, hphi, hw, Vec.values_add]
    rw [← Pi.sub_apply, ← Pi.add_apply]
    refine congrFun ?_ i
    simp only [Operators.remainder, Step.diagonalBlock, if_true, Vec.values_zeros, mulVec_add]
    abel
  | flux =>
    simp only [State.block, values_residual_psi h hops, Essential.inner_of_not_mem hi, values_fluxLoad h hops]
    rw [← Pi.sub_apply, ← Pi.add_apply, if_neg (by decide), diagonalBlock_flux_mulVec h hops, hbracketSum, hpsi]
    refine congrFun ?_ i
    simp only [Operators.remainder, Step.values_rate, Sparse.values_mulVec, Vec.values_add, mulVec_add, mulVec_smul,
      mulVec_sub]
    module
  | vorticity =>
    simp only [State.block, values_residual_w h hops, Essential.inner_of_not_mem hi, values_vorticityLoad h hops]
    rw [← Pi.sub_apply, ← Pi.add_apply, if_neg (by decide), diagonalBlock_vorticity_mulVec h hops, hbracketSum, hpsi,
      hw]
    refine congrFun ?_ i
    simp only [Operators.remainder, Step.values_rate, Sparse.values_mulVec, Vec.values_add, Vec.values_sub, mulVec_add,
      mulVec_smul, mulVec_sub]
    module

/-- At rest the remainder is even: the increment enters it twice, or once and once by its current. -/
theorem remainder_neg (d : Vec ℝ (3 * m.nodes)) (e : ℝ) {j j' : Vec ℝ m.nodes} (hj : j'.values = -j.values)
    (b : Block) :
    ((model.remainder (State.ofVec (Vec.zeros _)) (State.ofVec (Vec.scale (-e) d)) (Vec.zeros _) j').block b).values =
      ((model.remainder (State.ofVec (Vec.zeros _)) (State.ofVec (Vec.scale e d)) (Vec.zeros _) j).block b).values := by
  have hbracket : ∀ (c : ℝ) (u y : Vec ℝ m.nodes),
      (model.bracket (Vec.scale c u)).toMatrix *ᵥ y.values = c • (model.bracket u).toMatrix *ᵥ y.values := by
    rw [hops]
    exact Form.bracket_scale_mulVec h
  have hphi : ∀ c, (State.ofVec (Vec.scale c d)).phi = Vec.scale c (State.ofVec d).phi :=
    fun c => State.block_ofVec_scale c d .potential
  have hblock : ∀ c b, (State.ofVec (Vec.zeros _)).block b + (State.ofVec (Vec.scale c d)).block b =
      Vec.scale c ((State.ofVec d).block b) := by
    intro c b
    have hzeros : Vec.zeros (3 * m.nodes) + Vec.scale c d = Vec.scale c d := Vec.values_injective (by simp)
    rw [← State.block_ofVec_add, hzeros, State.block_ofVec_scale]
  have hpsi : ∀ c,
      (State.ofVec (Vec.zeros _)).psi + (State.ofVec (Vec.scale c d)).psi = Vec.scale c (State.ofVec d).psi :=
    fun c => hblock c .flux
  have hw : ∀ c, (State.ofVec (Vec.zeros _)).w + (State.ofVec (Vec.scale c d)).w = Vec.scale c (State.ofVec d).w :=
    fun c => hblock c .vorticity
  cases b with
  | potential => simp only [State.block, Operators.remainder]
  | flux =>
    simp only [State.block, Operators.remainder, hphi, hpsi, Sparse.values_mulVec, hbracket, Vec.values_scale,
      mulVec_smul]
    module
  | vorticity =>
    simp only [State.block, Operators.remainder, hphi, hpsi, hw, Sparse.values_mulVec, Vec.values_sub, hbracket, hj,
      Vec.values_scale, mulVec_smul, mulVec_neg]
    module

/-- Residuals at opposite states differ by twice what the linearisation at rest says. -/
theorem residual_sub_residual_neg (d : Vec ℝ (3 * m.nodes)) (e : ℝ) {j j' : Vec ℝ m.nodes} (hj : j'.values = -j.values)
    (b : Block) {i : Fin m.nodes} (hi : i ∉ model.ess) :
    ((model.residualAt s forcing j (State.ofVec (Vec.scale e d))).block b).values i -
        ((model.residualAt s forcing j' (State.ofVec (Vec.scale (-e) d))).block b).values i =
      2 * e * ((s.gradient model.toOperators (model.bracket (State.ofVec (Vec.zeros _)).phi)).mulVec d).values
        (State.place b i) := by
  have hchange : ∀ (c : ℝ) (k : Vec ℝ m.nodes), _ := fun c k =>
    residual_sub_residual h hops s forcing (Vec.zeros _) (Vec.scale c d) (Vec.zeros _) k b hi
  have hzeros : ∀ c : ℝ, Vec.zeros (3 * m.nodes) + Vec.scale c d = Vec.scale c d :=
    fun c => Vec.values_injective (by simp)
  have hplus := hchange e j
  have hminus := hchange (-e) j'
  rw [hzeros, Sparse.values_mulVec, Vec.values_scale, mulVec_smul, Pi.smul_apply, smul_eq_mul] at hplus hminus
  rw [congrFun (remainder_neg h hops d e hj b) i] at hminus
  rw [Sparse.values_mulVec]
  linear_combination hplus - hminus

end Remainder

variable {model : Model ℝ n} {mem : Memory ℝ n}

theorem exists_system_residual {before : Memory ℝ n} (hbefore : mem.Retained before)
    (hmass : Krylov.Exact model.massSystem model.massSolve)
    (hsystem : model.massSystem = model.mass.eliminate model.ess)
    (hsolvable : mem.solvable = true) {step : Step ℝ n} (hstep : mem.step.step = some step) {boundary : Vec ℝ n}
    (hboundary : mem.prescribed = some boundary) (x : Vec ℝ (3 * n)) :
    ∃ j after, (model.system.residual x).run before =
        .ok (model.residualAt step mem.step.forcing j (State.ofVec x)).toVec after ∧
      model.IsCurrent boundary (State.ofVec x).psi j ∧ mem.Retained after := by
  have hprescribed := hbefore.prescribed.trans hboundary
  obtain ⟨y, after, hy⟩ := exists_residual before hmass (hbefore.solvable.trans hsolvable) (hbefore.step.trans hstep)
    hprescribed (State.ofVec x)
  have hretained : mem.Retained after := (keeps_residual _).of_run_ok hbefore hy
  obtain ⟨s, boundary', hs, hboundary', hj, rfl, -⟩ := residual_ok hmass.sound hsystem hy
  obtain rfl : step = s := Option.some.inj ((hbefore.step.trans hstep).symm.trans hs)
  obtain rfl : boundary = boundary' := Option.some.inj (hprescribed.symm.trans hboundary')
  refine ⟨after.step.current, after, ?_, hj, hretained⟩
  refine run_bind_eq_ok.2 ⟨_, _, hy, ?_⟩
  rw [hbefore.stepForcing]
  rfl

variable {m : Mesh ℝ} {ess : Essential m.nodes} {viscosity resistivity : ℝ} {model : Model ℝ m.nodes}
  {mem : Memory ℝ m.nodes}

/-- **The linearisation leaves out two terms, and nothing else.**  On essential rows it is the identity.  On the other
rows the residual changes, along any increment from any state, by what the linearisation says, by convection along the
increment of the stream function, and by the change of the force of the current.  At rest, where no current is
prescribed, these terms are even, so that central differences of any size agree with the linearisation. -/
theorem residual_remainder (h : m.Proper) (hops : model.toOperators = .ofMesh m ess viscosity resistivity)
    (hmass : Krylov.Exact model.massSystem model.massSolve) (hsolvable : mem.solvable = true) {step : Step ℝ m.nodes}
    (hstep : mem.step.step = some step) {boundary : Vec ℝ m.nodes} (hboundary : mem.prescribed = some boundary) :
    (∀ x d : Vec ℝ (3 * m.nodes), ∃ r r' J mem₁ mem₂ mem₃ j j',
      (model.system.residual x).run mem = .ok r mem₁ ∧ (model.system.residual (x + d)).run mem₁ = .ok r' mem₂ ∧
      (model.system.gradient x).run mem₂ = .ok J mem₃ ∧
      model.IsCurrent boundary (State.ofVec x).psi j ∧ model.IsCurrent boundary (State.ofVec (x + d)).psi j' ∧
      (∀ b, ∀ i ∈ model.ess, ∀ k, J.entry (State.place b i) k = if State.place b i = k then 1 else 0) ∧
      ∀ b, ∀ i ∉ model.ess, (r' - r - J.mulVec d).get (State.place b i) =
        ((model.remainder (State.ofVec x) (State.ofVec d) j j').block b).get i) ∧
    (model.ess.ZeroOn boundary.values → ∀ (d : Vec ℝ (3 * m.nodes)) (e : ℝ), e ≠ 0 → ∃ r r' J mem₁ mem₂ mem₃,
      (model.system.residual (Vec.scale e d)).run mem = .ok r mem₁ ∧
      (model.system.residual (Vec.scale (-e) d)).run mem₁ = .ok r' mem₂ ∧
      (model.system.gradient (Vec.zeros _)).run mem₂ = .ok J mem₃ ∧
      ∀ b, ∀ i ∉ model.ess,
        (r - r').get (State.place b i) / (2 * e) = (J.mulVec d).get (State.place b i)) := by
  have hsystem := Operators.massSystem_eq hops
  constructor
  · intro x d
    obtain ⟨j, mem₁, hr, hj, hmem₁⟩ := exists_system_residual (.refl mem) hmass hsystem hsolvable hstep hboundary x
    obtain ⟨j', mem₂, hr', hj', hmem₂⟩ := exists_system_residual hmem₁ hmass hsystem hsolvable hstep hboundary (x + d)
    obtain ⟨mem₃, hJ⟩ : ∃ mem₃, (model.gradient (State.ofVec x)).run mem₂ = .ok _ mem₃ :=
      exists_gradient (hmem₂.step.trans hstep) (hmem₂.prescribed.trans hboundary) (State.ofVec x)
    refine ⟨_, _, _, mem₁, mem₂, mem₃, j, j', hr, hr', hJ, hj, hj', fun b i hi k => ?_, fun b i hi => ?_⟩
    · exact Step.entry_gradient_of_mem _ _ _ b hi k
    · have hsub := residual_sub_residual h hops step mem.step.forcing x d j j' b hi
      refine (congrFun (Vec.values_sub _ _) _).trans ?_
      rw [Vec.values_sub, Pi.sub_apply, Pi.sub_apply, State.values_toVec, State.values_toVec, hsub]
      exact add_sub_cancel_left _ _
  · intro hzero d e he
    obtain ⟨j, mem₁, hr, hj, hmem₁⟩ :=
      exists_system_residual (.refl mem) hmass hsystem hsolvable hstep hboundary (Vec.scale e d)
    obtain ⟨j', mem₂, hr', hj', hmem₂⟩ :=
      exists_system_residual hmem₁ hmass hsystem hsolvable hstep hboundary (Vec.scale (-e) d)
    obtain ⟨mem₃, hJ⟩ : ∃ mem₃, (model.gradient (State.ofVec (Vec.zeros _))).run mem₂ = .ok _ mem₃ :=
      exists_gradient (hmem₂.step.trans hstep) (hmem₂.prescribed.trans hboundary) _
    refine ⟨_, _, _, mem₁, mem₂, mem₃, hr, hr', hJ, fun b i hi => ?_⟩
    have hflux : (State.ofVec (Vec.scale (-e) d)).psi.values = -(State.ofVec (Vec.scale e d)).psi.values := by
      have hblock := fun c => State.block_ofVec_scale c d .flux
      simp only [State.block] at hblock
      rw [hblock, hblock, Vec.values_scale, Vec.values_scale, neg_smul]
    have hneg := hj.neg (Operators.mass_definite hops h) hzero hflux hj'
    have hsub := residual_sub_residual_neg h hops step mem.step.forcing d e hneg b hi
    rw [div_eq_iff (mul_ne_zero two_ne_zero he)]
    refine (congrFun (Vec.values_sub _ _) _).trans ?_
    rw [Pi.sub_apply, State.values_toVec, State.values_toVec, hsub, mul_comm]
    rfl

/-- A state of the unit square that turns and carries a flux. -/
noncomputable def turning : Vec ℝ (3 * Mesh.unitSquare.nodes) := (⟨vortex, ramp, ramp⟩ : State ℝ _).toVec

theorem residual_remainder_square :
    (∃ r r' J mem₁ mem₂ mem₃ j j',
      (square.system.residual turning).run stepping = .ok r mem₁ ∧
      (square.system.residual (turning + turning)).run mem₁ = .ok r' mem₂ ∧
      (square.system.gradient turning).run mem₂ = .ok J mem₃ ∧
      square.IsCurrent (Vec.zeros _) (State.ofVec turning).psi j ∧
      square.IsCurrent (Vec.zeros _) (State.ofVec (turning + turning)).psi j' ∧
      (∀ b, ∀ i ∈ square.ess, ∀ k, J.entry (State.place b i) k = if State.place b i = k then 1 else 0) ∧
      ∀ b, ∀ i ∉ square.ess, (r' - r - J.mulVec turning).get (State.place b i) =
        ((square.remainder (State.ofVec turning) (State.ofVec turning) j j').block b).get i) ∧
    ∃ r r' J mem₁ mem₂ mem₃,
      (square.system.residual (Vec.scale 3 turning)).run stepping = .ok r mem₁ ∧
      (square.system.residual (Vec.scale (-3) turning)).run mem₁ = .ok r' mem₂ ∧
      (square.system.gradient (Vec.zeros _)).run mem₂ = .ok J mem₃ ∧
      ∀ b, ∀ i ∉ square.ess,
        (r - r').get (State.place b i) / (2 * 3) = (J.mulVec turning).get (State.place b i) := by
  have hops : square.toOperators = .ofMesh Mesh.unitSquare (.boundary _) 1 1 := rfl
  have hzero : square.ess.ZeroOn (Vec.zeros Mesh.unitSquare.nodes).values := fun i _ => congrFun Vec.values_zeros i
  have hsolvable : stepping.solvable = true := rfl
  have hstep : stepping.step.step = some ⟨.int 1, State.zeros _⟩ := rfl
  have hboundary : stepping.prescribed = some (Vec.zeros _) := rfl
  obtain ⟨hremainder, hcentral⟩ :=
    residual_remainder Mesh.unitSquare_proper hops square_exactSolves.mass hsolvable hstep hboundary
  exact ⟨hremainder turning turning, hcentral hzero turning 3 three_ne_zero⟩

end Model

end Magnetofluid
