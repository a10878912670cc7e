import Mathlib
import Magnetofluid.Proofs.Model.Failure
import Magnetofluid.Proofs.Model.Jacobian
import Magnetofluid.Proofs.Newton.Contract

/-!
# A step as a system for Newton's method

What Newton's method finds when it asks for residuals and linearisations of a step, and what it leaves alone.

* `Memory.Retained`: what a memory has in common with an earlier one when nothing but evaluations of a step came between.
* `Model.keeps_solveStep`: Newton's method leaves nothing else behind, be it that it succeeds or fails.
* `Model.IsResidual`: the residual of a step at a state, as its formula gives it; `Model.IsResidual.unique`.
* `Model.exists_system_computes`: with exact solves of the mass matrix the step is a system whose evaluations succeed.
* `Model.solveStep_ok`: the residuals at the start and at the end of Newton's method.
-/

namespace Magnetofluid

open Matrix

variable {n : ℕ}

/-- A memory agrees with another one in all that an evaluation of a step reads without changing it, and in what belongs
to the explicit rate. -/
structure Memory.Retained (mem after : Memory ℝ n) : Prop where
  current : after.current = mem.current
  forcing : after.forcing = mem.forcing
  flow : after.flow = mem.flow
  field : after.field = mem.field
  step : after.step.step = mem.step.step
  boundary : after.step.boundary = mem.step.boundary
  stepForcing : after.step.forcing = mem.step.forcing
  solvable : after.solvable = mem.solvable
  multigrid : after.multigrid = mem.multigrid

namespace Memory.Retained

variable {mem after : Memory ℝ n}

theorem refl (mem : Memory ℝ n) : mem.Retained mem := ⟨rfl, rfl, rfl, rfl, rfl, rfl, rfl, rfl, rfl⟩

theorem prescribed (h : mem.Retained after) : after.prescribed = mem.prescribed := by
  unfold Memory.prescribed
  rw [h.boundary, h.current]

end Memory.Retained

namespace Model

variable {model : Model ℝ n} {mem mem' : Memory ℝ n}

/-! ### What Newton's method leaves alone -/

theorem keeps_withMass {α : Type} {P : Memory ℝ n → Prop} (hP : ∀ mem report, P mem → P { mem with massReport := report })
    (act : EStateM (Failure ℝ) (Krylov.Report ℝ) α) : Keeps P (withMass act) := by
  intro mem hmem
  unfold stateAfter
  cases hrun : (withMass act).run mem with
  | ok a after =>
    obtain ⟨-, report, -, rfl⟩ := withMass_eq_ok.1 hrun
    exact hP mem report hmem
  | error e after =>
    obtain ⟨-, -, rfl⟩ | ⟨-, report, -, rfl⟩ := withMass_eq_error.1 hrun
    · exact hmem
    · exact hP mem report hmem

theorem keeps_readyStep {P : Memory ℝ n → Prop} : Keeps P (readyStep : Action ℝ n _) := by
  refine .bind .get fun mem => ?_
  split
  · split
    · exact .throw _
    · exact .pure _
    · exact .pure _
  · exact .throw _

theorem keeps_residual (x : State ℝ n) : Keeps mem.Retained (model.residual x) := by
  refine .bind keeps_readyStep fun p => .bind (.modify fun _ h => { h with }) fun _ => ?_
  refine .bind .get fun before => .bind (keeps_withMass (fun _ _ h => { h with }) _) fun j => ?_
  refine .bind (.modify fun _ h => { h with }) fun _ => ?_
  exact .bind (.bind (.ofExcept _) fun _ => .pure _) fun _ => .bind .get fun _ => .pure _

theorem keeps_gradient (x : State ℝ n) : Keeps mem.Retained (model.gradient x) := by
  refine .bind keeps_readyStep fun p => .bind (.modify fun _ h => { h with }) fun _ => ?_
  dsimp only
  split
  · exact .throw_bind _ _
  · exact .pure _

theorem keeps_system_residual (v : Vec ℝ (3 * n)) : Keeps mem.Retained (model.system.residual v) :=
  .bind (keeps_residual _) fun _ => .pure _

theorem keeps_system_build (build : Sparse ℝ (3 * n) (3 * n) → Action ℝ n (Krylov.Preconditioner ℝ (3 * n)))
    (hbuild : model.system.precondition = some build) (J : Sparse ℝ (3 * n) (3 * n)) : Keeps mem.Retained (build J) := by
  obtain rfl := Option.some.inj hbuild
  exact .bind (.modify fun _ h => { h with }) fun _ => .ofExcept _

theorem keeps_solveStep (x : State ℝ n) : Keeps mem.Retained (model.solveStep x) := by
  intro before hbefore
  have hsolve : Keeps (fun st : Newton.State ℝ (3 * n) (Memory ℝ n) => mem.Retained st.inner)
      (Newton.solve model.newton model.linear model.system none) :=
    Newton.keeps_solve keeps_system_residual (fun v => keeps_gradient (State.ofVec v)) keeps_system_build
  unfold stateAfter
  cases hrun : (model.solveStep x).run before with
  | ok y after =>
    obtain ⟨st, hst, -, rfl⟩ := solveStep_eq_ok.1 hrun
    have h := hsolve.of_run_ok (s := ⟨x.toVec, before.newton, before⟩) hbefore hst
    exact { h with }
  | error e after =>
    obtain ⟨st, hst, rfl⟩ := solveStep_eq_error.1 hrun
    have h := hsolve.of_run_error (s := ⟨x.toVec, before.newton, before⟩) hbefore hst
    exact { h with }

/-! ### Residuals -/

/-- The residual of a step at a state by its formula, with any answer of the mass solve for the current. -/
def IsResidual (model : Model ℝ n) (mem : Memory ℝ n) (step : Step ℝ n) (x y : State ℝ n) : Prop :=
  ∃ boundary guess report j report', mem.prescribed = some boundary ∧
    (model.recovery.recoverWith x.psi guess boundary).run report = .ok j report' ∧
      y = step.residual model.toOperators mem.step.forcing (model.bracket x.phi) (model.bracket x.psi) j x

/-- With solves that return solutions there is one residual. -/
theorem IsResidual.unique {step : Step ℝ n} {x y y' : State ℝ n} (hmass : Krylov.Sound model.massSystem model.massSolve)
    (hsystem : model.massSystem = model.mass.eliminate model.ess) (hdefinite : model.ess.Definite model.mass.toMatrix)
    (hy : model.IsResidual mem step x y) (hy' : model.IsResidual mem step x y') : y = y' := by
  obtain ⟨boundary, _, _, j, _, hboundary, hj, rfl⟩ := hy
  obtain ⟨_, _, _, j', _, hboundary', hj', rfl⟩ := hy'
  obtain rfl := Option.some.inj (hboundary.symm.trans hboundary')
  have hcurrent := isCurrent_of_recoverWith hmass hsystem hj
  rw [hcurrent.unique hdefinite (isCurrent_of_recoverWith hmass hsystem hj') fun _ _ => rfl]

theorem residual_isResidual {step : Step ℝ n} {x y : State ℝ n} {before after : Memory ℝ n} (hbefore : mem.Retained before)
    (hstep : mem.step.step = some step) (h : (model.residual x).run before = .ok y after) :
    model.IsResidual mem step x y := by
  obtain ⟨s, boundary, j, r, hs, hboundary, -, hj, rfl, -⟩ := residual_eq_ok.1 h
  obtain rfl : step = s := Option.some.inj (hstep.symm.trans (hbefore.step.symm.trans hs))
  refine ⟨boundary, _, _, j, r, hbefore.prescribed.symm.trans hboundary, hj, ?_⟩
  rw [← hbefore.stepForcing]

/-- In all memories that evaluations leave of one with a step and prescribed values, the step is a system whose
evaluations succeed, and its residuals are those of the formula. -/
theorem exists_system_computes {step : Step ℝ n} {boundary : Vec ℝ n}
    (hmass : Krylov.Exact model.massSystem model.massSolve)
    (hsystem : model.massSystem = model.mass.eliminate model.ess) (hdefinite : model.ess.Definite model.mass.toMatrix)
    (hbuild : ∀ J : Sparse ℝ (3 * n) (3 * n), ∃ P, model.preconditioner.build J = .ok P) (hsolvable : mem.solvable = true)
    (hstep : mem.step.step = some step) (hboundary : mem.prescribed = some boundary) :
    ∃ F, model.system.Computes mem.Retained F ∧
      ∀ v, ∃ y, model.IsResidual mem step (State.ofVec v) y ∧ F v = y.toVec := by
  have hresidual : ∀ v before, mem.Retained before → ∃ y after,
      (model.residual (State.ofVec v)).run before = .ok y after ∧ model.IsResidual mem step (State.ofVec v) y := by
    intro v before hbefore
    obtain ⟨y, after, hy⟩ := exists_residual before hmass (hbefore.solvable.trans hsolvable)
      (hbefore.step.trans hstep) (hbefore.prescribed.trans hboundary) (State.ofVec v)
    exact ⟨y, after, hy, residual_isResidual hbefore hstep hy⟩
  choose F after _ hF using fun v => hresidual v mem (.refl mem)
  refine ⟨fun v => (F v).toVec, ⟨?_, ?_, ?_⟩, fun v => ⟨F v, hF v, rfl⟩⟩
  · -- another memory may lead to another guess of the current, but not to another current
    intro v before hbefore
    obtain ⟨y, after, hy, hvalue⟩ := hresidual v before hbefore
    obtain rfl : y = F v := hvalue.unique hmass.sound hsystem hdefinite (hF v)
    exact ⟨after, run_bind_eq_ok.2 ⟨_, after, hy, rfl⟩, (keeps_residual _).of_run_ok hbefore hy⟩
  · intro v before hbefore
    obtain ⟨after, hJ⟩ := @exists_gradient _ model _ _ _ (hbefore.step.trans hstep)
      (hbefore.prescribed.trans hboundary) (State.ofVec v)
    exact ⟨_, after, hJ, (keeps_gradient _).of_run_ok hbefore hJ⟩
  · intro build hbuilds J before hbefore
    obtain rfl := Option.some.inj hbuilds
    obtain ⟨P, hP⟩ := hbuild J
    exact ⟨P, { before with built := before.built + 1 },
      run_bind_eq_ok.2 ⟨⟨⟩, _, run_modify_eq_ok.2 rfl, run_ofExcept_eq_ok.2 ⟨hP, rfl⟩⟩, { hbefore with }⟩

/-- How Newton's method ends when it does not fail: within the tolerance after at most the steps that are allowed, or
outside after all of them. -/
theorem solveStep_ok {step : Step ℝ n} {x y : State ℝ n} (hstep : mem.step.step = some step)
    (h : (model.solveStep x).run mem = .ok y mem') :
    ∃ r₀ r rtol atol, model.IsResidual mem step x r₀ ∧ model.IsResidual mem step y r ∧ model.newton.rtol = .ok rtol ∧
      model.newton.atol = .ok atol ∧ mem'.newton.norm = some (Vec.norm r.toVec) ∧
      (mem'.newton.converged = true ∧ Vec.norm r.toVec ≤ max (rtol * Vec.norm r₀.toVec) atol ∧
          mem'.newton.iterations ≤ model.newton.steps ∨
        mem'.newton.converged = false ∧ max (rtol * Vec.norm r₀.toVec) atol < Vec.norm r.toVec ∧
          ∃ limit, model.newton.maxIter = .ok limit ∧ (mem'.newton.iterations : ℤ) = max limit 0) := by
  obtain ⟨st, hsolve, rfl, rfl⟩ := solveStep_eq_ok.1 h
  obtain ⟨v₀, mid, v, before, bound, hfirst, hbefore, hlast, hnorm, hbound, hend⟩ :=
    Newton.solve_first_last keeps_system_residual (fun v => keeps_gradient (State.ofVec v))
      keeps_system_build hsolve (.refl mem)
  obtain ⟨r₀, hr₀, rfl⟩ := system_residual_ok hfirst
  obtain ⟨r, hr, rfl⟩ := system_residual_ok hlast
  rw [State.ofVec_toVec] at hr₀
  obtain ⟨rtol, atol, hrtol, hatol, rfl⟩ := Newton.bound_eq_ok.1 hbound
  refine ⟨r₀, r, rtol, atol, residual_isResidual (.refl mem) hstep hr₀, residual_isResidual hbefore hstep hr, hrtol, hatol,
    hnorm, ?_⟩
  rcases hend with hconverged | ⟨hconverged, houtside, hsteps, limit, hlimit⟩
  · exact .inl hconverged
  · refine .inr ⟨hconverged, houtside, limit, hlimit, ?_⟩
    rw [← Newton.steps_eq hlimit]
    exact congrArg _ hsteps

end Model

end Magnetofluid
