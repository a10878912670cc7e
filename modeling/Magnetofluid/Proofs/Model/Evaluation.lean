import Mathlib
import Magnetofluid.Proofs.Model.Operators
import Magnetofluid.Proofs.Outcome

/-!
# Evaluations with exact solves

What the evaluations of a model return when its linear solves return solutions.

* `Krylov.Sound`, `Krylov.Exact`: each answer of a solve is a solution; and there always is one.
* `Model.rate_ok`, `Model.residual_ok`, `Model.potential_ok`: what an evaluation that succeeds has returned, and what it
  has left in memory.
* `Model.exists_rate`, `Model.exists_residual`, `Model.exists_potential`: with solves that always answer the
  evaluations succeed.
-/

namespace Magnetofluid

open Matrix

/-! ### Solves -/

namespace Krylov

variable {n : ℕ}

def Sound (A : Sparse ℝ n n) (solve : LinearSolve ℝ n) : Prop :=
  ∀ b x r y r', (solve b x).run r = .ok y r' → A.mulVec y = b

/-- A solve always has an answer, and it is a solution. -/
def Exact (A : Sparse ℝ n n) (solve : LinearSolve ℝ n) : Prop :=
  ∀ b x r, ∃ y r', (solve b x).run r = .ok y r' ∧ A.mulVec y = b

theorem Exact.sound {A : Sparse ℝ n n} {solve : LinearSolve ℝ n} (h : Exact A solve) : Sound A solve := by
  intro b x r y r' hy
  obtain ⟨z, s, hz, hsolution⟩ := h b x r
  rw [hy] at hz
  cases hz
  exact hsolution

end Krylov

/-- A recovery with an exact solve has an answer, and it is the current. -/
theorem CurrentRecovery.exists_recover {n : ℕ} {ops : Operators ℝ n} {solve : Krylov.LinearSolve ℝ n}
    (hsolve : Krylov.Exact (ops.mass.eliminate ops.ess) solve) (psi j : Vec ℝ n) (report : Krylov.Report ℝ) :
    ∃ j' report', (recover ⟨ops.mass, ops.jump, ops.ess, solve⟩ psi j).run report = .ok j' report' ∧
      ops.IsCurrent j psi j' := by
  obtain ⟨j', report', hj, hsolution⟩ := hsolve (rhs ⟨ops.mass, ops.jump, ops.ess, solve⟩ psi j) j report
  exact ⟨j', report', hj, (Operators.isCurrent_iff ops solve j psi j').1 hsolution⟩

namespace Model

variable {n : ℕ} {model : Model ℝ n} {mem mem' : Memory ℝ n}

/-! ### Current and rates -/

theorem withMass_eq_ok {α : Type} {act : EStateM (Failure ℝ) (Krylov.Report ℝ) α} {a : α} :
    (withMass act : Action ℝ n α).run mem = .ok a mem' ↔
      mem.solvable = true ∧ ∃ r, act.run mem.massReport = .ok a r ∧ mem' = { mem with massReport := r } := by
  show withMass act mem = _ ↔ _
  unfold withMass
  cases hsolvable : mem.solvable with
  | false => simp
  | true =>
    cases act.run mem.massReport with
    | ok b r => simp [eq_comm]
    | error e r => simp

theorem recoverCurrent_eq_ok {psi j : Vec ℝ n} :
    (model.recoverCurrent psi).run mem = .ok j mem' ↔ mem.solvable = true ∧
      ∃ r, (model.massSolve (model.recovery.rhs psi mem.current) mem.current).run mem.massReport = .ok j r ∧
        mem' = { mem with massReport := r, current := j } := by
  simp only [recoverCurrent, run_get_bind, run_modify_bind, run_bind_eq_ok, run_pure_eq_ok, withMass_eq_ok]
  constructor
  · rintro ⟨j, _, ⟨hsolvable, r, hr, rfl⟩, rfl, rfl⟩
    exact ⟨hsolvable, r, hr, rfl⟩
  · rintro ⟨hsolvable, r, hr, rfl⟩
    exact ⟨j, _, ⟨hsolvable, r, hr, rfl⟩, rfl, rfl⟩

theorem recoverCurrent_ok {psi j : Vec ℝ n} (hmass : Krylov.Sound model.massSystem model.massSolve)
    (hsystem : model.massSystem = model.mass.eliminate model.ess)
    (h : (model.recoverCurrent psi).run mem = .ok j mem') :
    model.IsCurrent mem.current psi j ∧ ∃ r, mem' = { mem with massReport := r, current := j } := by
  obtain ⟨-, r, hj, rfl⟩ := recoverCurrent_eq_ok.1 h
  have hsolution := hmass _ _ _ _ _ hj
  rw [hsystem] at hsolution
  exact ⟨(Operators.isCurrent_iff _ _ _ _ _).1 hsolution, r, rfl⟩

/-- A state has the rates `k`, with the current `j`. -/
structure IsRate (model : Model ℝ n) (forcing : Option (Vec ℝ n)) (x : State ℝ n) (j : Vec ℝ n) (k : State ℝ n) :
    Prop where
  phi : k.phi = Vec.zeros n
  psi : model.massSystem.mulVec k.psi =
    Vec.zeroOn model.ess (model.fluxLoad (model.bracket x.phi) forcing x.psi)
  w : model.massSystem.mulVec k.w =
    Vec.zeroOn model.ess (model.vorticityLoad (model.bracket x.phi) (model.bracket x.psi) j x.w)

/-- No rate moves a state on the essential nodes. -/
theorem isRate_zeroOn (hsystem : model.massSystem = model.mass.eliminate model.ess) {forcing : Option (Vec ℝ n)}
    {x k : State ℝ n} {j : Vec ℝ n} (hk : model.IsRate forcing x j k) (b : Block) :
    model.ess.ZeroOn (k.block b).values := by
  have hpsi := hk.psi
  have hw := hk.w
  rw [hsystem] at hpsi hw
  cases b with
  | potential =>
    show model.ess.ZeroOn k.phi.values
    rw [hk.phi, Vec.values_zeros]
    exact fun _ _ => rfl
  | flux => exact ((Sparse.eliminate_mulVec_eq_zeroOn_iff _ _ _ _).1 hpsi).1
  | vorticity => exact ((Sparse.eliminate_mulVec_eq_zeroOn_iff _ _ _ _).1 hw).1

theorem rate_ok {x k : State ℝ n} (hmass : Krylov.Sound model.massSystem model.massSolve)
    (hsystem : model.massSystem = model.mass.eliminate model.ess) (h : (model.rate x).run mem = .ok k mem') :
    model.IsCurrent mem.current x.psi mem'.current ∧ model.IsRate mem.forcing x mem'.current k ∧
      mem'.forcing = mem.forcing ∧ mem'.step = mem.step ∧ mem'.solvable = mem.solvable ∧
      mem'.multigrid = mem.multigrid := by
  simp only [rate, run_get_bind, run_modify_bind, run_bind_eq_ok, run_pure_eq_ok] at h
  obtain ⟨j, _, hcurrent, psi, _, hflux, w, _, hvorticity, rfl, rfl⟩ := h
  obtain ⟨hj, r, rfl⟩ := recoverCurrent_ok hmass hsystem hcurrent
  obtain ⟨-, r', hpsi, rfl⟩ := withMass_eq_ok.1 hflux
  obtain ⟨-, r'', hw, rfl⟩ := withMass_eq_ok.1 hvorticity
  exact ⟨hj, ⟨rfl, hmass _ _ _ _ _ hpsi, hmass _ _ _ _ _ hw⟩, rfl, rfl, rfl, rfl⟩

theorem exists_rate (hmass : Krylov.Exact model.massSystem model.massSolve) (hsolvable : mem.solvable = true)
    (x : State ℝ n) : ∃ k mem', (model.rate x).run mem = .ok k mem' := by
  simp only [rate, run_get_bind, run_modify_bind, run_bind_eq_ok, run_pure_eq_ok]
  obtain ⟨j, r, hj, -⟩ := hmass (model.recovery.rhs x.psi mem.current) mem.current mem.massReport
  obtain ⟨psi, r', hpsi, -⟩ := hmass (Vec.zeroOn model.ess (model.fluxLoad (model.bracket x.phi) mem.forcing x.psi))
    (Vec.zeros n) r
  obtain ⟨w, r'', hw, -⟩ := hmass
    (Vec.zeroOn model.ess (model.vorticityLoad (model.bracket x.phi) (model.bracket x.psi) j x.w)) (Vec.zeros n) r'
  exact ⟨_, _, j, _, recoverCurrent_eq_ok.2 ⟨hsolvable, r, hj, rfl⟩, psi, _,
    withMass_eq_ok.2 ⟨hsolvable, r', hpsi, rfl⟩, w, _, withMass_eq_ok.2 ⟨hsolvable, r'', hw, rfl⟩, rfl, rfl⟩

/-! ### Residual of the step -/

end Model

/-- The field that holds the prescribed values of the current of the step, if there is one. -/
def Memory.prescribed {n : ℕ} (mem : Memory ℝ n) : Option (Vec ℝ n) :=
  match mem.step.boundary with
  | .unset => none
  | .model => some mem.current
  | .given j => some j

namespace Model

variable {n : ℕ} {model : Model ℝ n} {mem mem' : Memory ℝ n}

theorem setStep_eq_ok {dt : Number ℝ} {start : State ℝ n} {u : Unit} :
    (setStep dt start).run mem = .ok u mem' ↔
      0 < dt.toScalar ∧ mem' = { mem with step.step := some ⟨dt, start⟩ } := by
  rw [← Number.isPositive_iff]
  unfold setStep
  cases dt.isPositive with
  | false => exact ⟨nofun, nofun⟩
  | true => simp [EStateM.run_modify, eq_comm]

theorem readyStep_eq_ok {p : Step ℝ n × Vec ℝ n} :
    (readyStep : Action ℝ n _).run mem = .ok p mem' ↔
      mem.step.step = some p.1 ∧ mem.prescribed = some p.2 ∧ mem' = mem := by
  unfold readyStep Memory.prescribed
  rw [run_get_bind]
  cases mem.step.step with
  | none => exact ⟨fun h => absurd h run_throw_ne_ok, fun h => nomatch h.1⟩
  | some s =>
    cases mem.step.boundary with
    | unset => exact ⟨fun h => absurd h run_throw_ne_ok, fun h => nomatch h.2.1⟩
    | model => exact run_pure_eq_ok.trans (by simp [Prod.ext_iff, and_assoc, eq_comm])
    | given j => exact run_pure_eq_ok.trans (by simp [Prod.ext_iff, and_assoc, eq_comm])

theorem isCurrent_of_recoverWith {psi guess boundary j : Vec ℝ n} {report report' : Krylov.Report ℝ}
    (hmass : Krylov.Sound model.massSystem model.massSolve) (hsystem : model.massSystem = model.mass.eliminate model.ess)
    (h : (model.recovery.recoverWith psi guess boundary).run report = .ok j report') : model.IsCurrent boundary psi j := by
  have hsolution := hmass _ _ _ _ _ h
  rw [hsystem] at hsolution
  exact Operators.isCurrent_overwriteOn_iff.1 ((Operators.isCurrent_iff _ _ _ _ _).1 hsolution)

theorem residual_eq_ok {x y : State ℝ n} :
    (model.residual x).run mem = .ok y mem' ↔ ∃ step boundary j r, mem.step.step = some step ∧
      mem.prescribed = some boundary ∧ mem.solvable = true ∧
      (model.recovery.recoverWith x.psi mem.step.current boundary).run mem.massReport = .ok j r ∧
      y = step.residual model.toOperators mem.step.forcing (model.bracket x.phi) (model.bracket x.psi) j x ∧
      mem' = { mem with
        massReport := r
        step := { mem.step with
          flow := some (model.bracket x.phi), field := some (model.bracket x.psi), current := j } } := by
  simp only [residual, run_get_bind, run_modify_bind, run_bind_eq_ok, run_pure_eq_ok, withMass_eq_ok]
  constructor
  · rintro ⟨⟨step, boundary⟩, u, hready, j, _, ⟨hsolvable, r, hj, rfl⟩, _, _, hdt, rfl, rfl⟩
    obtain ⟨hstep, hboundary, rfl⟩ := readyStep_eq_ok.1 hready
    obtain ⟨_, hdt⟩ := run_discard_eq_ok.1 hdt
    obtain ⟨-, rfl⟩ := run_ofExcept_eq_ok.1 hdt
    exact ⟨step, boundary, j, r, hstep, hboundary, hsolvable, hj, rfl, rfl⟩
  · rintro ⟨step, boundary, j, r, hstep, hboundary, hsolvable, hj, rfl, rfl⟩
    exact ⟨(step, boundary), _, readyStep_eq_ok.2 ⟨hstep, hboundary, rfl⟩, j, _, ⟨hsolvable, r, hj, rfl⟩, ⟨⟩, _,
      run_discard_eq_ok.2 ⟨_, run_ofExcept_eq_ok.2 ⟨step.dt.usable_real, rfl⟩⟩, rfl, rfl⟩

theorem residual_ok {x y : State ℝ n} (hmass : Krylov.Sound model.massSystem model.massSolve)
    (hsystem : model.massSystem = model.mass.eliminate model.ess) (h : (model.residual x).run mem = .ok y mem') :
    ∃ step boundary, mem.step.step = some step ∧ mem.prescribed = some boundary ∧
      model.IsCurrent boundary x.psi mem'.step.current ∧
      y = step.residual model.toOperators mem.step.forcing (model.bracket x.phi) (model.bracket x.psi)
        mem'.step.current x ∧
      mem'.current = mem.current ∧ mem'.forcing = mem.forcing ∧ mem'.solvable = mem.solvable ∧
      mem'.multigrid = mem.multigrid ∧ mem'.step.step = mem.step.step ∧ mem'.step.boundary = mem.step.boundary ∧
      mem'.step.forcing = mem.step.forcing := by
  obtain ⟨step, boundary, j, r, hstep, hboundary, -, hj, hy, rfl⟩ := residual_eq_ok.1 h
  exact ⟨step, boundary, hstep, hboundary, isCurrent_of_recoverWith hmass hsystem hj, hy, rfl, rfl, rfl, rfl, rfl, rfl, rfl⟩

theorem exists_residual (mem : Memory ℝ n) {step : Step ℝ n} {boundary : Vec ℝ n}
    (hmass : Krylov.Exact model.massSystem model.massSolve) (hsolvable : mem.solvable = true)
    (hstep : mem.step.step = some step) (hboundary : mem.prescribed = some boundary) (x : State ℝ n) :
    ∃ y mem', (model.residual x).run mem = .ok y mem' := by
  obtain ⟨j, r, hj, -⟩ := hmass
    (model.recovery.rhs x.psi (Vec.overwriteOn model.ess boundary mem.step.current))
    (Vec.overwriteOn model.ess boundary mem.step.current) mem.massReport
  exact ⟨_, _, residual_eq_ok.2 ⟨step, boundary, j, r, hstep, hboundary, hsolvable, hj, rfl, rfl⟩⟩

noncomputable def residualOf (model : Model ℝ n) (dt : Number ℝ) (start x : State ℝ n) : Action ℝ n (State ℝ n) := do
  setStep dt start
  model.residual x

theorem residualOf_ok {dt : Number ℝ} {start x y : State ℝ n}
    (hmass : Krylov.Sound model.massSystem model.massSolve)
    (hsystem : model.massSystem = model.mass.eliminate model.ess)
    (h : (model.residualOf dt start x).run mem = .ok y mem') :
    0 < dt.toScalar ∧ ∃ boundary, mem.prescribed = some boundary ∧
      model.IsCurrent boundary x.psi mem'.step.current ∧
      y = Step.residual ⟨dt, start⟩ model.toOperators mem.step.forcing (model.bracket x.phi) (model.bracket x.psi)
        mem'.step.current x := by
  obtain ⟨_, _, hset, hresidual⟩ := run_bind_eq_ok.1 h
  obtain ⟨hdt, rfl⟩ := setStep_eq_ok.1 hset
  obtain ⟨step, boundary, hstep, hboundary, hj, hy, -⟩ := residual_ok hmass hsystem hresidual
  obtain rfl : ⟨dt, start⟩ = step := Option.some.inj hstep
  exact ⟨hdt, boundary, hboundary, hj, hy⟩

theorem exists_residualOf {dt : Number ℝ} {boundary : Vec ℝ n} (hmass : Krylov.Exact model.massSystem model.massSolve)
    (hsolvable : mem.solvable = true) (hboundary : mem.prescribed = some boundary) (hdt : 0 < dt.toScalar)
    (start x : State ℝ n) : ∃ y mem', (model.residualOf dt start x).run mem = .ok y mem' := by
  obtain ⟨y, mem', hy⟩ := exists_residual { mem with step.step := some ⟨dt, start⟩ } hmass hsolvable rfl hboundary x
  exact ⟨y, mem', run_bind_eq_ok.2 ⟨⟨⟩, _, setStep_eq_ok.2 ⟨hdt, rfl⟩, hy⟩⟩

/-! ### Implicit step -/

theorem solveStep_eq_ok {x y : State ℝ n} :
    (model.solveStep x).run mem = .ok y mem' ↔ ∃ st,
      (Newton.solve model.newton model.linear model.system none).run ⟨x.toVec, mem.newton, mem⟩ = .ok () st ∧
        y = State.ofVec st.x ∧ mem' = { st.inner with newton := st.progress } := by
  show model.solveStep x mem = _ ↔ _
  unfold solveStep
  cases (Newton.solve model.newton model.linear model.system none).run ⟨x.toVec, mem.newton, mem⟩ with
  | ok u st => simp [eq_comm]
  | error e st => simp

/-- The rate of a step from `x` to `y`. -/
noncomputable def stepRate (dt : Number ℝ) (x y : State ℝ n) : State ℝ n :=
  let step : Step ℝ n := ⟨dt, x⟩
  ⟨step.rate x.phi y.phi, step.rate x.psi y.psi, step.rate x.w y.w⟩

theorem implicitRate_eq_ok {dt : Number ℝ} {x k : State ℝ n} :
    (model.implicitRate dt x).run mem = .ok k mem' ↔ 0 < dt.toScalar ∧ ∃ y,
      (model.solveStep x).run { mem with step.step := some ⟨dt, x⟩ } = .ok y mem' ∧ mem'.newton.converged = true ∧
        k = stepRate dt x y := by
  unfold implicitRate
  rw [run_bind_eq_ok]
  constructor
  · rintro ⟨_, _, hset, h⟩
    obtain ⟨hdt, rfl⟩ := setStep_eq_ok.1 hset
    obtain ⟨y, mem₁, hy, h⟩ := run_bind_eq_ok.1 h
    rw [run_get_bind] at h
    by_cases hconverged : mem₁.newton.converged = true
    · rw [if_pos hconverged] at h
      obtain ⟨rfl, rfl⟩ := run_pure_eq_ok.1 h
      exact ⟨hdt, y, hy, hconverged, rfl⟩
    · rw [if_neg hconverged] at h
      exact absurd h nofun
  · rintro ⟨hdt, y, hy, hconverged, rfl⟩
    refine ⟨⟨⟩, _, setStep_eq_ok.2 ⟨hdt, rfl⟩, run_bind_eq_ok.2 ⟨y, mem', hy, ?_⟩⟩
    rw [run_get_bind, if_pos hconverged]
    rfl

/-! ### Stream function -/

/-- The solves by which stream functions are recovered, if they are still there. -/
def potentialSolve? (model : Model ℝ n) (mem : Memory ℝ n) : Option (Krylov.LinearSolve ℝ n) :=
  match model.multigridSolve with
  | some solve => if mem.multigrid then some solve else none
  | none => if mem.solvable then some model.stiffnessSolve else none

theorem potential_eq_ok {x : State ℝ n} {phi : Vec ℝ n} :
    (model.potential x).run mem = .ok phi mem' ↔ ∃ solve, model.potentialSolve? mem = some solve ∧
      (∃ r, (solve (model.potentialLoad x.w) x.phi).run .fresh = .ok phi r) ∧ mem' = mem := by
  unfold potential potentialSolve?
  rw [run_get_bind]
  cases model.multigridSolve with
  | none =>
    cases mem.solvable with
    | false => exact ⟨nofun, nofun⟩
    | true =>
      simp only [if_true, run_pure_bind, Option.some.injEq, exists_eq_left']
      cases (model.stiffnessSolve (model.potentialLoad x.w) x.phi).run .fresh with
      | ok phi' r => exact run_pure_eq_ok.trans (by simp [eq_comm])
      | error e r => exact ⟨nofun, nofun⟩
  | some solve =>
    cases mem.multigrid with
    | false => exact ⟨nofun, nofun⟩
    | true =>
      simp only [if_true, run_pure_bind, Option.some.injEq, exists_eq_left']
      cases (solve (model.potentialLoad x.w) x.phi).run .fresh with
      | ok phi' r => exact run_pure_eq_ok.trans (by simp [eq_comm])
      | error e r => exact ⟨nofun, nofun⟩

/-- The solves of the stiffness matrix that a model has. -/
def IsStiffnessSolve (model : Model ℝ n) (solve : Krylov.LinearSolve ℝ n) : Prop :=
  solve = model.stiffnessSolve ∨ model.multigridSolve = some solve

theorem isStiffnessSolve_of_potentialSolve {solve : Krylov.LinearSolve ℝ n}
    (h : model.potentialSolve? mem = some solve) : model.IsStiffnessSolve solve := by
  unfold potentialSolve? at h
  unfold IsStiffnessSolve
  cases hmultigrid : model.multigridSolve with
  | none =>
    rw [hmultigrid] at h
    obtain ⟨-, h⟩ := Option.ite_none_right_eq_some.1 h
    exact .inl (Option.some.inj h).symm
  | some multigrid =>
    rw [hmultigrid] at h
    exact .inr (Option.ite_none_right_eq_some.1 h).2

theorem potential_ok {x : State ℝ n} {phi : Vec ℝ n}
    (hstiffness : ∀ solve, model.IsStiffnessSolve solve → Krylov.Sound model.stiffnessSystem solve)
    (h : (model.potential x).run mem = .ok phi mem') :
    model.stiffnessSystem.mulVec phi = model.potentialLoad x.w ∧ mem' = mem := by
  obtain ⟨solve, hsolve, ⟨r, hphi⟩, rfl⟩ := potential_eq_ok.1 h
  exact ⟨hstiffness solve (isStiffnessSolve_of_potentialSolve hsolve) _ _ _ _ _ hphi, rfl⟩

theorem exists_potential
    (hstiffness : ∀ solve, model.IsStiffnessSolve solve → Krylov.Exact model.stiffnessSystem solve)
    (hsolvable : mem.solvable = true) (hmultigrid : mem.multigrid = model.multigridSolve.isSome) (x : State ℝ n) :
    ∃ phi, (model.potential x).run mem = .ok phi mem := by
  have hsolve : ∃ solve, model.potentialSolve? mem = some solve := by
    unfold potentialSolve?
    cases hsome : model.multigridSolve with
    | none => exact ⟨_, if_pos hsolvable⟩
    | some solve => exact ⟨_, if_pos (by rw [hmultigrid, hsome]; rfl)⟩
  obtain ⟨solve, hsolve⟩ := hsolve
  obtain ⟨phi, r, hphi, -⟩ :=
    hstiffness solve (isStiffnessSolve_of_potentialSolve hsolve) (model.potentialLoad x.w) x.phi .fresh
  exact ⟨phi, potential_eq_ok.2 ⟨solve, hsolve, ⟨r, hphi⟩, rfl⟩⟩

theorem potential_zeroOn (hsystem : model.stiffnessSystem = model.stiffness.eliminate model.ess) {w phi : Vec ℝ n}
    (hphi : model.stiffnessSystem.mulVec phi = model.potentialLoad w) : model.ess.ZeroOn phi.values := by
  rw [hsystem] at hphi
  exact ((Sparse.eliminate_mulVec_eq_zeroOn_iff _ _ _ _).1 hphi).1

theorem potential_constrained {x : State ℝ n}
    (hphi : model.stiffnessSystem.mulVec x.phi = model.potentialLoad x.w) : model.Constrained x := by
  intro i hi
  have hload := congrFun (congrArg Vec.values hphi) i
  unfold Model.potentialLoad at hload
  rw [Vec.values_zeroOn, Essential.inner_of_not_mem hi, Vec.values_neg, Pi.neg_apply] at hload
  rw [Vec.values_add, Pi.add_apply, hload, neg_add_cancel]

end Model

end Magnetofluid
