import Mathlib
import Magnetofluid.Proofs.Model.SetUp
import Magnetofluid.Proofs.Model.StepSystem
import Magnetofluid.Proofs.Simulation.Evolution

/-!
# The contract of an implicit step

What an implicit step promises, whatever the linear solves of Newton's method answer, and what it leaves alone.

* `Model.implicitRate_eq_error`: how an implicit step fails.
* `Session.stateAfter_implicitRate`: what it leaves of a session, be it that it succeeds or fails.
* `Session.implicitRate_contract`: the rate of an implicit step leads to a state whose residual is within the tolerance,
  or the step fails and tells the residual of the last iterate.
-/

namespace Magnetofluid

open Matrix

variable {n : ℕ}

namespace Model

variable {model : Model ℝ n} {mem mem' : Memory ℝ n}

theorem implicitRate_eq_error {dt : Number ℝ} {x : State ℝ n} {e : Failure ℝ} (hdt : 0 < dt.toScalar) :
    (model.implicitRate dt x).run mem = .error e mem' ↔
      (model.solveStep x).run { mem with step.step := some ⟨dt, x⟩ } = .error e mem' ∨
      ∃ y, (model.solveStep x).run { mem with step.step := some ⟨dt, x⟩ } = .ok y mem' ∧
        mem'.newton.converged = false ∧ e = .newtonDiverged mem'.newton.iterations (mem'.newton.norm.getD 0) := by
  unfold implicitRate
  rw [run_bind_of_eq_ok (a := ⟨⟩) (setStep_eq_ok.2 ⟨hdt, rfl⟩), run_bind_eq_error]
  refine or_congr_right ⟨?_, ?_⟩
  · rintro ⟨y, after, hy, h⟩
    rw [run_get_bind] at h
    cases hconverged : after.newton.converged with
    | true =>
      rw [if_pos hconverged] at h
      exact absurd h run_pure_ne_error
    | false =>
      rw [if_neg (by rw [hconverged]; exact Bool.false_ne_true)] at h
      rcases run_bind_eq_error.1 h with hthrow | ⟨_, _, hthrow, -⟩
      · obtain ⟨rfl, rfl⟩ := run_throw_eq_error.1 hthrow
        exact ⟨y, hy, hconverged, rfl⟩
      · exact absurd hthrow run_throw_ne_ok
  · rintro ⟨y, hy, hconverged, rfl⟩
    refine ⟨y, mem', hy, ?_⟩
    rw [run_get_bind, if_neg (by rw [hconverged]; exact Bool.false_ne_true)]
    rfl

theorem implicitRate_retained (mem : Memory ℝ n) {dt : Number ℝ} (hdt : 0 < dt.toScalar) (x : State ℝ n) :
    Memory.Retained { mem with step.step := some ⟨dt, x⟩ } (stateAfter (model.implicitRate dt x) mem) := by
  have hkeeps : Keeps (Memory.Retained { mem with step.step := some ⟨dt, x⟩ }) (model.solveStep x) := keeps_solveStep x
  unfold stateAfter
  cases hrun : (model.implicitRate dt x).run mem with
  | ok k after =>
    obtain ⟨-, y, hy, -⟩ := implicitRate_eq_ok.1 hrun
    exact hkeeps.of_run_ok (.refl _) hy
  | error e after =>
    rcases (implicitRate_eq_error hdt).1 hrun with h | ⟨y, hy, -⟩
    · exact hkeeps.of_run_error (.refl _) h
    · exact hkeeps.of_run_ok (.refl _) hy

end Model

namespace Session

variable {m : Mesh ℝ} {s t : Session m} {dt : Value ℝ} {size : Number ℝ} {x : State ℝ m.nodes}

/-! ### The rate of a step in a session -/

def stepping (s : Session m) (size : Number ℝ) (x : State ℝ m.nodes) : Session m :=
  { s with memory.step.step := some ⟨size, x⟩, startIsState := true }

/-- The rate of a step once its arguments are accepted. -/
noncomputable def stepRate (size : Number ℝ) (x : State ℝ m.nodes) : Call m (State ℝ m.nodes) := do
  let k ← evaluate fun model => model.implicitRate size x
  modify fun s => { s with rate := k.toVec.toArray }
  return k

theorem implicitRate_run (hdt : dt.stepSize = .ok size) (hpos : 0 < size.toScalar)
    (hx : State.ofArray m.nodes s.state = .ok x) {output : Option (Array ℝ)}
    (houtput : ∀ xs, output = some xs → xs.size = 3 * m.nodes) :
    (implicitRate dt output).run s = (stepRate size x).run (s.stepping size x) := by
  have hcurrent : (current : Call m _).run s = .ok x s := run_ofExcept_eq_ok.2 ⟨hx, rfl⟩
  have hlook : (MonadExcept.ofExcept dt.stepSize : Call m _).run s = .ok size s := run_ofExcept_eq_ok.2 ⟨hdt, rfl⟩
  have hset : (evaluate fun _ => Model.setStep size x : Call m Unit).run s =
      .ok ⟨⟩ { s with memory.step.step := some ⟨size, x⟩ } :=
    evaluate_eq_ok.2 ⟨_, Model.setStep_eq_ok.2 ⟨hpos, rfl⟩, rfl⟩
  have hcheck : (checkOutput output : Call m Unit).run (s.stepping size x) = .ok ⟨⟩ (s.stepping size x) := by
    cases output with
    | none => rfl
    | some xs =>
      have hfits : State.ofArray m.nodes xs = .ok (State.ofVec ⟨xs, houtput xs rfl⟩) := by
        unfold State.ofArray Vec.ofArray?
        rw [dif_pos (houtput xs rfl)]
      exact run_discard_eq_ok.2 ⟨_, run_ofExcept_eq_ok.2 ⟨hfits, rfl⟩⟩
  unfold implicitRate
  -- the rate sets the step once more, to the same one
  rw [run_bind_of_eq_ok hcurrent, run_bind_of_eq_ok hlook, run_bind_of_eq_ok hset, run_modify_bind]
  exact run_bind_of_eq_ok hcheck _

theorem stepRate_eq_ok {k : State ℝ m.nodes} :
    (stepRate size x).run s = .ok k t ↔
      ∃ memory, (s.model.implicitRate size x).run s.memory = .ok k memory ∧
        t = { s with memory, rate := k.toVec.toArray } := by
  unfold stepRate
  simp only [run_bind_eq_ok, evaluate_eq_ok, run_modify_eq_ok, run_pure_eq_ok]
  constructor
  · rintro ⟨_, _, ⟨memory, hk, rfl⟩, _, _, rfl, rfl, rfl⟩
    exact ⟨memory, hk, rfl⟩
  · rintro ⟨memory, hk, rfl⟩
    exact ⟨k, _, ⟨memory, hk, rfl⟩, ⟨⟩, _, rfl, rfl, rfl⟩

theorem stepRate_eq_error {e : Failure ℝ} :
    (stepRate size x).run s = .error e t ↔
      ∃ memory, (s.model.implicitRate size x).run s.memory = .error e memory ∧ t = { s with memory } := by
  unfold stepRate
  rw [run_bind_eq_error, evaluate_eq_error]
  refine or_iff_left ?_
  rintro ⟨k, u, -, h⟩
  rcases run_bind_eq_error.1 h with h | ⟨_, _, -, h⟩
  · exact run_modify_ne_error h
  · exact run_pure_ne_error h

theorem stateAfter_implicitRate (hdt : dt.stepSize = .ok size) (hpos : 0 < size.toScalar)
    (hx : State.ofArray m.nodes s.state = .ok x) {output : Option (Array ℝ)}
    (houtput : ∀ xs, output = some xs → xs.size = 3 * m.nodes) :
    ∃ memory rate, stateAfter (implicitRate dt output) s = { s.stepping size x with memory, rate } ∧
      (s.stepping size x).memory.Retained memory := by
  have hretained : (s.stepping size x).memory.Retained
      (stateAfter (s.model.implicitRate size x) (s.stepping size x).memory) :=
    Model.implicitRate_retained (s.stepping size x).memory hpos x
  unfold stateAfter at hretained ⊢
  rw [implicitRate_run hdt hpos hx houtput]
  cases hk : (s.model.implicitRate size x).run (s.stepping size x).memory with
  | ok k memory =>
    rw [hk] at hretained
    rw [stepRate_eq_ok.2 ⟨memory, hk, rfl⟩]
    exact ⟨memory, k.toVec.toArray, rfl, hretained⟩
  | error e memory =>
    rw [hk] at hretained
    rw [stepRate_eq_error.2 ⟨memory, hk, rfl⟩]
    exact ⟨memory, s.rate, rfl, hretained⟩

/-- **The contract of an implicit step.**  From the state `x` of a session and for a positive size, with any linear solver
for the steps of Newton's method: the output vector has no influence.  If a rate is returned, it leads within the step to
a state whose residual is within the tolerance that the residual at `x` sets, after at most the iterations that are
allowed.  Otherwise the step fails, with the cause of a part that failed, or because Newton's method has ended outside
the tolerance after all its iterations; the failure then tells their number and the residual of the last iterate.
State, current, forcing and brackets of the session are in all cases what they were. -/
theorem implicitRate_contract (hdt : dt.stepSize = .ok size) (hpos : 0 < size.toScalar)
    (hx : State.ofArray m.nodes s.state = .ok x) {output : Option (Array ℝ)}
    (houtput : ∀ xs, output = some xs → xs.size = 3 * m.nodes) :
    (implicitRate dt output).run s = (implicitRate dt none).run s ∧
    (∀ k t, (implicitRate dt output).run s = .ok k t → ∃ r₀ r rtol atol,
      s.model.IsResidual s.memory ⟨size, x⟩ x r₀ ∧
      s.model.IsResidual s.memory ⟨size, x⟩ (x.advance size.toScalar k) r ∧
      s.model.newton.rtol = .ok rtol ∧ s.model.newton.atol = .ok atol ∧
      Vec.norm r.toVec ≤ max (rtol * Vec.norm r₀.toVec) atol ∧
      ∀ limit, s.model.newton.maxIter = .ok limit → (t.memory.newton.iterations : ℤ) ≤ max limit 0) ∧
    (∀ e t, (implicitRate dt output).run s = .error e t →
      (∃ mem, (s.model.solveStep x).run (s.stepping size x).memory = .error e mem ∧
        (s.model.Silent → ¬ e.IsDivergence)) ∨
      ∃ iterations y mem r₀ r rtol atol limit,
        (s.model.solveStep x).run (s.stepping size x).memory = .ok y mem ∧
        e = .newtonDiverged iterations (Vec.norm r.toVec) ∧
        s.model.IsResidual s.memory ⟨size, x⟩ x r₀ ∧ s.model.IsResidual s.memory ⟨size, x⟩ y r ∧
        s.model.newton.rtol = .ok rtol ∧ s.model.newton.atol = .ok atol ∧
        max (rtol * Vec.norm r₀.toVec) atol < Vec.norm r.toVec ∧
        s.model.newton.maxIter = .ok limit ∧ (iterations : ℤ) = max limit 0) ∧
    ∀ t, stateAfter (implicitRate dt output) s = t →
      t.state = s.state ∧ t.memory.current = s.memory.current ∧ t.memory.forcing = s.memory.forcing ∧
        t.memory.flow = s.memory.flow ∧ t.memory.field = s.memory.field := by
  -- once the output vector is found to fit, nothing reads it
  have hrun := implicitRate_run hdt hpos hx houtput
  have hnone : (implicitRate dt none).run s = (stepRate size x).run (s.stepping size x) :=
    implicitRate_run hdt hpos hx fun _ h => nomatch h
  refine ⟨hrun.trans hnone.symm, fun k t h => ?_, fun e t h => ?_, ?_⟩
  · rw [hrun] at h
    obtain ⟨mem, hk, rfl⟩ := stepRate_eq_ok.1 h
    obtain ⟨-, y, hy, hconverged, rfl⟩ := Model.implicitRate_eq_ok.1 hk
    obtain ⟨r₀, r, rtol, atol, hr₀, hr, hrtol, hatol, -, hend⟩ := Model.solveStep_ok rfl hy
    rw [Evolution.advance_stepRate hpos]
    obtain ⟨-, hwithin, hsteps⟩ | ⟨hfalse, -⟩ := hend
    · refine ⟨r₀, r, rtol, atol, hr₀, hr, hrtol, hatol, hwithin, fun limit hlimit => ?_⟩
      rw [← Newton.steps_eq hlimit]
      exact Int.ofNat_le.2 hsteps
    · rw [hconverged] at hfalse
      cases hfalse
  · -- a part has failed, or the iteration has ended and its end is told
    rw [hrun] at h
    obtain ⟨mem, hk, rfl⟩ := stepRate_eq_error.1 h
    rcases (Model.implicitRate_eq_error hpos).1 hk with hfail | ⟨y, hy, hconverged, rfl⟩
    · exact .inl ⟨mem, hfail, fun hsilent => Model.failsOnly_solveStep hsilent x _ _ _ hfail⟩
    obtain ⟨r₀, r, rtol, atol, hr₀, hr, hrtol, hatol, hnorm, hend⟩ := Model.solveStep_ok rfl hy
    obtain ⟨htrue, -⟩ | ⟨-, houtside, limit, hlimit, hsteps⟩ := hend
    · rw [hconverged] at htrue
      cases htrue
    · refine .inr ⟨_, y, mem, r₀, r, rtol, atol, limit, hy, ?_, hr₀, hr, hrtol, hatol, houtside, hlimit, hsteps⟩
      rw [hnorm]
      rfl
  · obtain ⟨memory, rate, hafter, hretained⟩ := stateAfter_implicitRate hdt hpos hx houtput
    rintro t rfl
    rw [hafter]
    exact ⟨rfl, hretained.current, hretained.forcing, hretained.flow, hretained.field⟩

end Session

/-! ### A stream function alone -/

noncomputable def State.ofPotential (phi : Vec ℝ n) : State ℝ n := ⟨phi, Vec.zeros n, Vec.zeros n⟩

/-- The linearisation takes a stream function alone to what it breaks of the constraint. -/
theorem Step.gradient_mulVec_ofPotential (s : Step ℝ n) (ops : Operators ℝ n) (flow : Sparse ℝ n n) {phi : Vec ℝ n}
    (hphi : ops.ess.ZeroOn phi.values) :
    (s.gradient ops flow).mulVec (State.ofPotential phi).toVec =
      (State.ofPotential (Vec.zeroOn ops.ess (ops.stiffnessSystem.mulVec phi))).toVec := by
  have hrest : ∀ b, b ≠ .potential → ∀ z : Vec ℝ n, ((State.ofPotential z).block b).values = 0 := by
    intro b hb z
    cases b with
    | potential => exact absurd rfl hb
    | flux => exact Vec.values_zeros
    | vorticity => exact Vec.values_zeros
  refine Vec.values_injective (funext fun k => ?_)
  obtain ⟨b, i, rfl⟩ := State.exists_place k
  rw [State.values_toVec]
  by_cases hb : b = .potential
  · subst hb
    show _ = (Vec.zeroOn ops.ess _).values i
    rw [Vec.values_zeroOn]
    by_cases hi : i ∈ ops.ess
    · rw [s.gradient_mulVec_of_mem ops flow _ .potential hi, State.values_toVec, Essential.inner_of_mem hi]
      exact hphi i hi
    · rw [s.gradient_mulVec_potential ops flow _ hi, State.ofVec_toVec, Essential.inner_of_not_mem hi]
      simp [State.ofPotential]
  · rw [s.gradient_mulVec_diagonal ops flow _ b (fun h => absurd h hb), State.ofVec_toVec, Sparse.values_mulVec,
      hrest b hb, hrest b hb, Matrix.mulVec_zero]

namespace Model

variable {m : Mesh ℝ} {ess : Essential m.nodes} {viscosity resistivity : ℝ} {model : Model ℝ m.nodes}

/-- Of a stream function alone the residual is what it breaks of the constraint, if the step starts from one as well. -/
theorem residual_ofPotential (h : m.Proper) (hops : model.toOperators = .ofMesh m ess viscosity resistivity)
    (dt : Number ℝ) (start phi : Vec ℝ m.nodes) (flow : Sparse ℝ m.nodes m.nodes) (j : Vec ℝ m.nodes) :
    Step.residual ⟨dt, .ofPotential start⟩ model.toOperators none flow (model.bracket (Vec.zeros _)) j
      (.ofPotential phi) = .ofPotential (Vec.zeroOn model.ess (model.stiffnessSystem.mulVec phi)) := by
  have hess := Operators.ess_eq hops
  have hbracket : (model.bracket (Vec.zeros _)).toMatrix *ᵥ j.values = 0 := by
    rw [hops]
    refine (Form.bracket_mulVec_swap h (Vec.zeros _) j).trans ?_
    simp
  refine State.ext_values ?_ ?_ ?_
  · rw [values_residual_phi hops]
    simp [State.ofPotential, hess]
  · rw [values_residual_psi h hops, values_fluxLoad h hops]
    simp [State.ofPotential]
  · rw [values_residual_w h hops, values_vorticityLoad h hops, hbracket]
    simp [State.ofPotential]

end Model

namespace Session

/-! ### A step of a vortex -/

/-- The stream function of a vortex without its vorticity, which breaks the constraint. -/
noncomputable def spin : State ℝ Mesh.unitSquare.nodes := .ofPotential Model.vortex

/-- The vortex in the unit square, with a relative tolerance and a limit for Newton's method. -/
noncomputable def whirling (rtol : ℝ) (limit : ℤ) : Session Mesh.unitSquare :=
  let newton := { Model.square.newton with rtol := .ok rtol, atol := .ok 0, maxIter := .ok limit }
  { start { square with model := { Model.square with newton } } with state := spin.toVec.toArray }

/-- What the vortex breaks of the constraint. -/
noncomputable def broken : Vec ℝ (3 * Mesh.unitSquare.nodes) :=
  (State.ofPotential (Vec.zeroOn Model.square.ess (Model.square.stiffnessSystem.mulVec Model.vortex))).toVec

theorem norm_broken_pos : 0 < Vec.norm broken := by
  refine lt_of_le_of_ne (Real.sqrt_nonneg _) fun hnorm => ?_
  have hzero : State.ofPotential (Vec.zeroOn Model.square.ess (Model.square.stiffnessSystem.mulVec Model.vortex)) =
      State.zeros _ := by
    refine (State.ofVec_toVec _).symm.trans ?_
    show State.ofVec broken = _
    rw [Vec.eq_zeros_of_norm_eq_zero hnorm.symm, ← State.toVec_zeros, State.ofVec_toVec]
  have hphi : Model.square.ess.inner (Model.square.stiffnessSystem.toMatrix *ᵥ Model.vortex.values) = 0 := by
    simpa [State.ofPotential, State.zeros, Vec.values_zeroOn] using congrArg (fun x => x.phi.values) hzero
  have hmiddle := (Form.stiffness_definite Mesh.unitSquare_proper
    (Essential.boundary_nonempty _)).eliminate_inner_eq_zero_iff.1 hphi (Mesh.unitSquare.node 1 1) (by decide)
  unfold Model.vortex at hmiddle
  rw [Vec.values_ofFn, if_neg (by decide)] at hmiddle
  exact one_ne_zero hmiddle

/-- The memory with which Newton's method begins. -/
noncomputable def begun (rtol : ℝ) (limit : ℤ) : Memory ℝ Mesh.unitSquare.nodes :=
  ((whirling rtol limit).stepping (.real 1) spin).memory

/-- The step of the vortex as a system, of which the residuals at the vortex and at rest are known. -/
theorem exists_computes_whirling (rtol : ℝ) (limit : ℤ) :
    ∃ F, (whirling rtol limit).model.system.Computes (begun rtol limit).Retained F ∧
      F spin.toVec = broken ∧ F (Vec.zeros _) = Vec.zeros _ := by
  have hmass : Krylov.Exact (whirling rtol limit).model.massSystem (whirling rtol limit).model.massSolve :=
    Model.square_exactSolves.mass
  have hops : (whirling rtol limit).model.toOperators = .ofMesh Mesh.unitSquare (.boundary _) 1 1 := rfl
  have hstep : (begun rtol limit).step.step = some ⟨.real 1, spin⟩ := rfl
  obtain ⟨F, hF, hvalue⟩ := Model.exists_system_computes hmass (Operators.massSystem_eq hops)
    (Operators.mass_definite hops Mesh.unitSquare_proper) (fun _ => ⟨_, rfl⟩) rfl hstep rfl
  have hat : ∀ phi, F (State.ofPotential phi).toVec = (State.ofPotential
      (Vec.zeroOn Model.square.ess (Model.square.stiffnessSystem.mulVec phi))).toVec := by
    intro phi
    obtain ⟨y, ⟨_, _, _, j, _, -, -, rfl⟩, hy⟩ := hvalue (State.ofPotential phi).toVec
    rw [hy, State.ofVec_toVec]
    exact congrArg State.toVec (Model.residual_ofPotential Mesh.unitSquare_proper hops _ _ phi _ j)
  refine ⟨F, hF, hat _, ?_⟩
  have hrest := hat (Vec.zeros _)
  have hzero : Vec.zeroOn Model.square.ess (Model.square.stiffnessSystem.mulVec (Vec.zeros _)) = Vec.zeros _ :=
    Vec.values_injective (by simp [Vec.values_zeroOn])
  rw [hzero] at hrest
  rwa [← State.toVec_zeros]

theorem gradient_whirling_injective (phi : Vec ℝ Mesh.unitSquare.nodes) :
    Function.Injective ((Step.gradient ⟨.real 1, spin⟩ Model.square.toOperators
      (Model.square.bracket phi)).toMatrix *ᵥ ·) :=
  Step.gradient_injective (Form.diagonalBlock_positive Mesh.unitSquare_proper
    (fun k => (Essential.boundary_isBoundary _ k).2) zero_le_one zero_le_one one_pos phi)

theorem linearisation_whirling {rtol : ℝ} {limit : ℤ} {x : Vec ℝ (3 * Mesh.unitSquare.nodes)}
    {s s' : Memory ℝ Mesh.unitSquare.nodes} {J : Sparse ℝ (3 * Mesh.unitSquare.nodes) (3 * Mesh.unitSquare.nodes)}
    {P : Krylov.Preconditioner ℝ (3 * Mesh.unitSquare.nodes)} (hs : (begun rtol limit).Retained s)
    (h : ((whirling rtol limit).model.system.linearisation x).run s = .ok (J, P) s') :
    J = Step.gradient ⟨.real 1, spin⟩ Model.square.toOperators (Model.square.bracket (State.ofVec x).phi) := by
  obtain ⟨t, hJ, -⟩ := Newton.System.linearisation_eq_ok.1 h
  obtain ⟨t', hJ'⟩ := @Model.exists_gradient _ (whirling rtol limit).model _ _ _ hs.step hs.prescribed (State.ofVec x)
  exact (EStateM.Result.ok.inj (hJ.symm.trans hJ')).1

theorem answering_whirling (rtol : ℝ) (limit : ℤ) : Newton.Answering (whirling rtol limit).model.system
    (begun rtol limit).Retained (whirling rtol limit).model.linear := by
  intro x s hs J P s' h r
  rw [linearisation_whirling hs h]
  exact ⟨_, if_pos (mulVec_injective_iff_isUnit.1 (gradient_whirling_injective _))⟩

/-- At the vortex the linear solver answers with the vortex itself. -/
theorem step_of_answers {rtol : ℝ} {limit : ℤ} {s s' : Memory ℝ Mesh.unitSquare.nodes}
    {answer : Newton.LinearStep ℝ (3 * Mesh.unitSquare.nodes)} (hs : (begun rtol limit).Retained s)
    (h : Newton.Answers (whirling rtol limit).model.system (whirling rtol limit).model.linear s spin.toVec broken
      answer s') (hinfo : 0 ≤ answer.info) : answer.step = spin.toVec := by
  obtain ⟨J, P, hlinearisation, hanswer⟩ := h
  obtain rfl := linearisation_whirling hs hlinearisation
  have hsolution := Newton.direct_sound _ P _ _ hanswer hinfo
  refine Vec.values_injective (gradient_whirling_injective (State.ofVec spin.toVec).phi ?_)
  show _ *ᵥ _ = _ *ᵥ _
  rw [← Sparse.values_mulVec, ← Sparse.values_mulVec, hsolution]
  exact (congrArg Vec.values (Step.gradient_mulVec_ofPotential _ _ _ Model.vortex_zeroOn)).symm

/-- With steps allowed, Newton's method takes one, to the state at rest; with none, it ends where it is. -/
theorem exists_solveStep_whirling (rtol : ℝ) (hrtol : rtol < 1) (limit : ℤ) :
    ∃ y mem, ((whirling rtol limit).model.solveStep spin).run (begun rtol limit) = .ok y mem ∧
      (0 < limit → mem.newton.converged = true ∧ mem.newton.iterations = 1) ∧
      (limit ≤ 0 → mem.newton.converged = false ∧ mem.newton.iterations = 0) := by
  obtain ⟨F, hF, hspin, hrest⟩ := exists_computes_whirling rtol limit
  have hsettings : (whirling rtol limit).model.newton.Given rtol 0 1 limit := ⟨rfl, rfl, rfl, rfl, false, rfl⟩
  have hsteps := Newton.steps_eq hsettings.maxIter
  obtain ⟨k, xs, ss, st, hcourse, hend⟩ := Newton.solve_run hF hsettings (answering_whirling rtol limit) spin.toVec
    (begun rtol limit).newton (begun rtol limit) (.refl _)
  rw [hspin] at hend hcourse
  have hoff : max (rtol * Vec.norm broken) 0 < Vec.norm broken :=
    max_lt (mul_lt_of_lt_one_left norm_broken_pos hrtol) norm_broken_pos
  have hstart : xs 0 = spin.toVec := hcourse.start
  -- the first step leads to rest, where the residual vanishes
  have hnext : 0 < k → F (xs 1) = Vec.zeros _ := by
    intro hk
    obtain ⟨answer, s', hanswer, hinfo, hx, -⟩ := hcourse.step 0 hk
    obtain ⟨s, hs, hretained⟩ := hF.residual spin.toVec _ (.refl _)
    obtain ⟨-, rfl⟩ := EStateM.Result.ok.inj (hs.symm.trans hcourse.measured)
    rw [hstart, hspin] at hanswer
    rw [hx, hstart, step_of_answers hretained hanswer hinfo, ← hrest]
    congr 1
    refine Vec.values_injective ?_
    simp
  have hone : k ≤ 1 := by
    by_contra hmany
    have houtside := hcourse.outside 1 (by omega)
    rw [hnext (by omega), Vec.norm_zeros] at houtside
    exact (le_max_right _ _).not_gt houtside
  rcases hend with ⟨hrun, -, hend⟩ | ⟨answer, ⟨J, P, -, hanswer⟩, hinfo, -⟩
  · refine ⟨_, _, Model.solveStep_eq_ok.2 ⟨st, hrun, rfl, rfl⟩, ?_⟩
    have hiterations : st.progress.iterations = k := hcourse.iterations.trans (Nat.zero_add k)
    obtain rfl | rfl : k = 0 ∨ k = 1 := by omega
    · rw [hstart, hspin] at hend
      obtain ⟨-, hwithin, -⟩ | ⟨hconverged, -, hspent⟩ := hend
      · exact absurd hwithin hoff.not_ge
      · exact ⟨fun hpos => by omega, fun _ => ⟨hconverged, hiterations⟩⟩
    · rw [hnext one_pos, Vec.norm_zeros] at hend
      obtain ⟨hconverged, -, hsome⟩ | ⟨-, houtside, -⟩ := hend
      · exact ⟨fun _ => ⟨hconverged, hiterations⟩, fun hnone => by omega⟩
      · exact absurd houtside (le_max_right _ _).not_gt
  · exact absurd hinfo (Newton.info_of_direct (P := P) hanswer).not_lt

theorem state_whirling (rtol : ℝ) (limit : ℤ) :
    State.ofArray Mesh.unitSquare.nodes (whirling rtol limit).state = .ok spin := by
  show State.ofArray _ spin.toVec.toArray = _
  unfold State.ofArray
  rw [Vec.ofArray?_toArray]
  show Except.ok (State.ofVec spin.toVec) = _
  rw [State.ofVec_toVec]

/-- An output vector that was used before. -/
noncomputable def used : Vec ℝ (3 * Mesh.unitSquare.nodes) := Vec.fill _ 7

/-- With a relative tolerance of a hundred-millionth the step of the vortex succeeds after one iteration; where less
than none is allowed it fails, and tells of none. -/
theorem implicitRate_contract_vortex :
    (∃ k t r₀ r, (implicitRate (.real 1) (some used.toArray)).run (whirling 1e-8 20) = .ok k t ∧
      (whirling 1e-8 20).model.IsResidual (whirling 1e-8 20).memory ⟨.real 1, spin⟩ spin r₀ ∧
      (whirling 1e-8 20).model.IsResidual (whirling 1e-8 20).memory ⟨.real 1, spin⟩ (spin.advance 1 k) r ∧
      Vec.norm r.toVec ≤ max (1e-8 * Vec.norm r₀.toVec) 0 ∧ t.memory.newton.iterations = 1 ∧
      (t.memory.newton.iterations : ℤ) ≤ max 20 0) ∧
    ∃ y r t, (implicitRate (.real 1) (some used.toArray)).run (whirling 0 (-3)) =
        .error (.newtonDiverged 0 (Vec.norm r.toVec)) t ∧
      (whirling 0 (-3)).model.IsResidual (whirling 0 (-3)).memory ⟨.real 1, spin⟩ y r ∧ 0 < Vec.norm r.toVec ∧
      t.state = (whirling 0 (-3)).state := by
  have hdt : (Value.real (1 : ℝ)).stepSize = .ok (.real 1) := rfl
  have hpos : (0 : ℝ) < (Number.real 1).toScalar := one_pos
  have houtput : ∀ xs, some used.toArray = some xs → xs.size = 3 * Mesh.unitSquare.nodes :=
    fun xs h => Option.some.inj h ▸ used.size_toArray
  constructor
  · obtain ⟨y, mem, hsolve, hsome, -⟩ := exists_solveStep_whirling 1e-8 (by norm_num) 20
    obtain ⟨hend, hiterations⟩ := hsome (by norm_num)
    have hrun := (implicitRate_run hdt hpos (state_whirling 1e-8 20) houtput).trans
      (stepRate_eq_ok.2 ⟨mem, Model.implicitRate_eq_ok.2 ⟨hpos, y, hsolve, hend, rfl⟩, rfl⟩)
    obtain ⟨-, hok, -⟩ := implicitRate_contract hdt hpos (state_whirling 1e-8 20) houtput
    obtain ⟨r₀, r, rtol, atol, hr₀, hr, hrtol, hatol, hwithin, hsteps⟩ := hok _ _ hrun
    cases hrtol
    cases hatol
    exact ⟨_, _, r₀, r, hrun, hr₀, hr, hwithin, hiterations, hsteps 20 rfl⟩
  · obtain ⟨y₀, mem, hsolve, -, hnone⟩ := exists_solveStep_whirling 0 zero_lt_one (-3)
    obtain ⟨hend, -⟩ := hnone (by norm_num)
    have hrun := (implicitRate_run hdt hpos (state_whirling 0 (-3)) houtput).trans
      (stepRate_eq_error.2 ⟨mem, (Model.implicitRate_eq_error hpos).2 (.inr ⟨y₀, hsolve, hend, rfl⟩), rfl⟩)
    obtain ⟨-, -, herror, hframe⟩ := implicitRate_contract hdt hpos (state_whirling 0 (-3)) houtput
    obtain ⟨_, hfail, -⟩ | ⟨iterations, y, _, r₀, r, rtol, atol, limit, -, he, -, hr, hrtol, hatol, houtside, hmaxIter,
      hiterations⟩ := herror _ _ hrun
    · cases hsolve.symm.trans hfail
    rw [he] at hrun
    cases hrtol
    cases hatol
    cases hmaxIter
    obtain rfl : iterations = 0 := by omega
    refine ⟨y, r, _, hrun, hr, (le_max_right _ _).trans_lt houtside, (hframe _ ?_).1⟩
    unfold stateAfter
    rw [hrun]

end Session

end Magnetofluid
