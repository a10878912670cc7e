import Mathlib
import Magnetofluid.Model.Configuration
import Magnetofluid.Proofs.Exact.Text
import Magnetofluid.Proofs.Model.Evaluation
import Magnetofluid.Proofs.Newton.Failure

/-!
# Causes of failures of a model

The divergence of Newton's method is told at its end and by nothing that runs before.

* `Model.Silent`: no part of a model fails with the divergence of Newton's method.
* `Model.failsOnly_solveStep`: then Newton's method does not fail with it either, it ends and has not converged.
* `ModelDescription.toModel_silent`, `NamedModel.withNewton_silent`: the models of all descriptions are such, also when
  Newton's method is given other settings.
-/

namespace Magnetofluid

/-- A cause is the end of Newton's method outside its tolerance. -/
def Failure.IsDivergence : Failure ℝ → Prop
  | .newtonDiverged _ _ => True
  | _ => False

/-! ### Preconditioners -/

theorem Krylov.Preconditioner.errorsOnly_build {n : ℕ} (A : Sparse ℝ n n) (kind : Kind) :
    ErrorsOnly (¬ ·.IsDivergence) (build A kind) := by
  cases kind with
  | unset => exact .ok _
  | none => exact .ok _
  | jacobi =>
    unfold build ofDiagonal
    dsimp only
    split
    · exact .error id
    · exact .ok _
  | ilu => exact .elim id fun _ => .ok _
  | amg => exact .ok _
  | other name => exact .error id

theorem StepPreconditioner.errorsOnly_build {n : ℕ} (J : Sparse ℝ (3 * n) (3 * n)) (kind : StepPreconditioner) :
    ErrorsOnly (¬ ·.IsDivergence) (build J kind) := by
  cases kind with
  | block =>
    have hfactors : ∀ b, ErrorsOnly (¬ ·.IsDivergence) ((Factorization.ofMatrix? (blockOf J b b)).elim
        (.error .singular) Except.ok : Except (Failure ℝ) _) := fun b => .elim id fun _ => .ok _
    exact .bind (hfactors _) fun _ => .bind (hfactors _) fun _ => .bind (hfactors _) fun _ => .ok _
  | ilu => exact Krylov.Preconditioner.errorsOnly_build J .ilu
  | jacobi => exact Krylov.Preconditioner.errorsOnly_build J .jacobi
  | none => exact Krylov.Preconditioner.errorsOnly_build J .none

/-! ### Newton's method -/

namespace Model

variable {n : ℕ} {model : Model ℝ n} {mem mem' : Memory ℝ n}

theorem withMass_eq_error {α : Type} {act : EStateM (Failure ℝ) (Krylov.Report ℝ) α} {e : Failure ℝ} :
    (withMass act : Action ℝ n α).run mem = .error e mem' ↔ mem.solvable = false ∧ e = .noMatrix ∧ mem' = mem ∨
      mem.solvable = true ∧ ∃ r, act.run mem.massReport = .error e r ∧ mem' = { mem with massReport := r } := by
  show withMass act mem = _ ↔ _
  unfold withMass
  cases hsolvable : mem.solvable with
  | false => simp [eq_comm]
  | true =>
    cases act.run mem.massReport with
    | ok a r => simp
    | error f r => simp [eq_comm]

theorem solveStep_eq_error {x : State ℝ n} {e : Failure ℝ} :
    (model.solveStep x).run mem = .error e mem' ↔ ∃ st,
      (Newton.solve model.newton model.linear model.system none).run ⟨x.toVec, mem.newton, mem⟩ = .error e st ∧
        mem' = { st.inner with newton := st.progress } := by
  show model.solveStep x mem = _ ↔ _
  unfold solveStep
  cases (Newton.solve model.newton model.linear model.system none).run ⟨x.toVec, mem.newton, mem⟩ with
  | ok u st => simp
  | error e st => simp [eq_comm]

/-- No part of a model fails with the divergence of Newton's method. -/
structure Silent (model : Model ℝ n) : Prop where
  mass : ∀ b x, FailsOnly (¬ ·.IsDivergence) (model.massSolve b x)
  linear : ∀ J P r, ErrorsOnly (¬ ·.IsDivergence) (model.linear J P r)
  newton : model.newton.FailsOnly (¬ ·.IsDivergence)

variable (hsilent : model.Silent)

theorem failsOnly_readyStep : FailsOnly (¬ ·.IsDivergence) (readyStep : Action ℝ n _) := by
  refine .bind .get fun mem => ?_
  split
  · split
    · exact .throw id
    · exact .pure _
    · exact .pure _
  · exact .throw id

theorem failsOnly_gradient (x : State ℝ n) : FailsOnly (¬ ·.IsDivergence) (model.gradient x) := by
  refine .bind failsOnly_readyStep fun p => .bind (.modify _) fun _ => ?_
  dsimp only
  split
  · exact .throw_bind id _
  · exact .pure _

include hsilent

theorem failsOnly_residual (x : State ℝ n) : FailsOnly (¬ ·.IsDivergence) (model.residual x) := by
  have hcurrent : ∀ psi j boundary,
      FailsOnly (¬ ·.IsDivergence) (withMass (model.recovery.recoverWith psi j boundary) : Action ℝ n _) := by
    intro psi j boundary before e after h
    obtain ⟨-, rfl, -⟩ | ⟨-, report, hfail, -⟩ := withMass_eq_error.1 h
    · exact id
    · exact hsilent.mass _ _ _ _ _ hfail
  refine .bind failsOnly_readyStep fun p => .bind (.modify _) fun _ => .bind .get fun before => ?_
  refine .bind (hcurrent _ _ _) fun j => .bind (.modify _) fun _ => ?_
  refine .bind (.bind (.ofExcept fun e h => ?_) fun _ => .pure _) fun _ => .bind .get fun _ => .pure _
  rw [Number.usable_real] at h
  cases h

/-- Newton's method does not fail with its divergence: it ends, and has not converged. -/
theorem failsOnly_solveStep (x : State ℝ n) : FailsOnly (¬ ·.IsDivergence) (model.solveStep x) := by
  intro mem e mem' h
  obtain ⟨st, hsolve, -⟩ := solveStep_eq_error.1 h
  refine Newton.failsOnly_solve hsilent.newton (fun _ => id) hsilent.linear (fun v => ?_) (fun v => ?_) ?_ _ _ _ hsolve
  · exact .bind (failsOnly_residual hsilent _) fun _ => .pure _
  · exact failsOnly_gradient _
  · intro build hbuild J
    obtain rfl := Option.some.inj hbuild
    exact .bind (.modify _) fun _ => .ofExcept (StepPreconditioner.errorsOnly_build _ _)

end Model

/-! ### Described models -/

section Values

variable (v : Value ℝ)

theorem Value.errorsOnly_toNumber : ErrorsOnly (¬ ·.IsDivergence) v.toNumber := .elim id fun _ => .ok _

theorem Value.errorsOnly_realOfInteger (i : ℤ) :
    ErrorsOnly (¬ ·.IsDivergence) (realOfInteger i : Except (Failure ℝ) ℝ) := .elim id fun _ => .ok _

theorem Value.errorsOnly_toScalar : ErrorsOnly (¬ ·.IsDivergence) v.toScalar := by
  refine .bind v.errorsOnly_toNumber fun x => ?_
  cases x with
  | int i => exact Value.errorsOnly_realOfInteger i
  | real x => exact .ok x

theorem Value.errorsOnly_toOperand : ErrorsOnly (¬ ·.IsDivergence) v.toOperand := by
  unfold toOperand
  split
  · exact .error id
  · exact v.errorsOnly_toScalar

namespace Krylov.Settings

theorem errorsOnly_toleranceOf (x : Number ℝ) : ErrorsOnly (¬ ·.IsDivergence) (toleranceOf x) := by
  cases x with
  | int i => exact .ok (i : ℝ)
  | real x => exact .ok x

theorem errorsOnly_relative : ErrorsOnly (¬ ·.IsDivergence) (relative v) := by
  unfold relative
  split
  · exact .elim id fun _ => .ok _
  · exact .bind v.errorsOnly_toNumber fun x => errorsOnly_toleranceOf x

theorem errorsOnly_absolute : ErrorsOnly (¬ ·.IsDivergence) (absolute v) := by
  unfold absolute
  split
  · exact .error id
  · exact .error id
  · exact .bind v.errorsOnly_toNumber fun x => errorsOnly_toleranceOf x

theorem errorsOnly_limit : ErrorsOnly (¬ ·.IsDivergence) (limit v) := by
  unfold limit
  split
  · exact .ok _
  · exact .ok _
  · exact .ok _
  · exact .error id

end Krylov.Settings

namespace Newton.Settings

theorem errorsOnly_restartOf (n : ℕ) : ErrorsOnly (¬ ·.IsDivergence) (restartOf v n) := by
  unfold restartOf
  split
  · exact .ok _
  dsimp only
  split
  · exact .error id
  refine .bind v.errorsOnly_toNumber fun x => ?_
  cases x with
  | int i => exact .ok _
  | real x =>
    dsimp only
    split
    · exact .ok _
    · exact .error id

theorem errorsOnly_minimalResidual {n : ℕ} {settings : Settings ℝ}
    (hatol : ErrorsOnly (¬ ·.IsDivergence) settings.linearAtol) (hrtol : ErrorsOnly (¬ ·.IsDivergence) settings.linearRtol)
    (hlimit : ErrorsOnly (¬ ·.IsDivergence) settings.linearMaxIter)
    (hrestart : ∀ n, ErrorsOnly (¬ ·.IsDivergence) (settings.restart n)) (J : Sparse ℝ n n)
    (P : Krylov.Preconditioner ℝ n) (r : Vec ℝ n) : ErrorsOnly (¬ ·.IsDivergence) (settings.minimalResidual J P r) := by
  refine .bind hatol fun atol => ?_
  split
  · exact .error id
  refine .bind hrtol fun rtol => ?_
  dsimp only
  split
  · exact .ok _
  refine .bind (hrestart n) fun restart => ?_
  split
  · exact .error id
  refine .bind hlimit fun limit => ?_
  split
  · exact .error id
  split
  · exact .error id
  · exact .ok _

/-- Settings by name tell of no divergence, neither where the iteration looks at them nor where its linear solves do. -/
theorem failsOnly_ofNamed {named : List (String × Value ℝ)} {settings : Settings ℝ} (h : ofNamed named = .ok settings) :
    settings.FailsOnly (¬ ·.IsDivergence) ∧ ∀ {n} (J : Sparse ℝ n n) (P : Krylov.Preconditioner ℝ n) (r : Vec ℝ n),
      ErrorsOnly (¬ ·.IsDivergence) (settings.minimalResidual J P r) := by
  unfold ofNamed at h
  split at h
  · cases h
  cases h
  refine ⟨⟨?_, ?_, ?_, ?_, ?_⟩, errorsOnly_minimalResidual ?_ ?_ ?_ ?_⟩
  · exact .bind (Value.errorsOnly_toNumber _) fun _ => .ok _
  · exact Value.errorsOnly_toScalar _
  · exact .bind (Value.errorsOnly_toNumber _) fun _ => .ok _
  · exact .bind (Value.errorsOnly_toNumber _) fun _ => .ok _
  · exact Value.errorsOnly_toOperand _
  · exact Krylov.Settings.errorsOnly_absolute _
  · exact Krylov.Settings.errorsOnly_relative _
  · exact Krylov.Settings.errorsOnly_limit _
  · exact errorsOnly_restartOf _

end Newton.Settings

namespace Krylov

theorem Settings.errorsOnly_attempt {n : ℕ} {settings : Settings ℝ} (hatol : ErrorsOnly (¬ ·.IsDivergence) settings.atol)
    (hrtol : ErrorsOnly (¬ ·.IsDivergence) settings.rtol) (hlimit : ErrorsOnly (¬ ·.IsDivergence) settings.maxIter)
    (A : Sparse ℝ n n) (P : Preconditioner ℝ n) (b x : Vec ℝ n) :
    ErrorsOnly (¬ ·.IsDivergence) (settings.attempt A P b x) := by
  refine .bind hatol fun atol => ?_
  dsimp only
  split
  · exact .error id
  refine .bind hrtol fun rtol => ?_
  split
  · exact .ok _
  refine .bind hlimit fun limit => ?_
  split
  · exact .ok _
  · split
    · exact .error id
    · exact .ok _

namespace Solver

theorem errorsOnly_system (s : Solver ℝ) (n : ℕ) : ErrorsOnly (¬ ·.IsDivergence) (s.system? n) := by
  unfold system?
  split
  · exact .error id
  · split
    · exact .ok _
    · exact .error id

/-- The solves of a context tell of no divergence if its settings do not. -/
theorem failsOnly_toLinearSolve {n : ℕ} {s : Solver ℝ} (hatol : ErrorsOnly (¬ ·.IsDivergence) s.settings.atol)
    (hrtol : ErrorsOnly (¬ ·.IsDivergence) s.settings.rtol) (hlimit : ErrorsOnly (¬ ·.IsDivergence) s.settings.maxIter)
    (b x : Vec ℝ n) : FailsOnly (¬ ·.IsDivergence) (s.toLinearSolve n b x) := by
  intro report e report' h
  have hsolve : ∃ t, (solve b x).run { s with report } = .error e t := by
    change toLinearSolve s n b x report = _ at h
    unfold toLinearSolve at h
    cases hrun : (solve b x).run { s with report } with
    | ok y t =>
      rw [hrun] at h
      cases h
    | error f t =>
      rw [hrun] at h
      cases h
      exact ⟨t, rfl⟩
  obtain ⟨t, hsolve⟩ := hsolve
  unfold solve at hsolve
  rw [run_get_bind] at hsolve
  refine (?_ : FailsOnly (¬ ·.IsDivergence) _) _ _ _ hsolve
  split
  · exact .throw_bind id _
  -- a solve that does not reach its tolerance fails with a cause of its own
  refine .bind (.set _) fun _ => .bind (.ofExcept (errorsOnly_system _ n)) fun p => ?_
  refine .bind (.ofExcept (Settings.errorsOnly_attempt hatol hrtol hlimit _ _ _ _)) fun result => ?_
  refine .bind (.set _) fun _ => ?_
  split
  · exact .pure _
  · exact .throw id

theorem failsOnly_ofNamed {n : ℕ} {A : AnyMatrix ℝ} {named : List (String × Value ℝ)} {s : Solver ℝ}
    (h : ofNamed A named = .ok s) (b x : Vec ℝ n) : FailsOnly (¬ ·.IsDivergence) (s.toLinearSolve n b x) := by
  obtain ⟨_, -, h⟩ := except_bind_eq_ok.1 h
  obtain ⟨settings, hsettings, h⟩ := except_bind_eq_ok.1 h
  obtain ⟨_, -, h⟩ := except_bind_eq_ok.1 h
  cases h
  unfold Settings.ofNamed at hsettings
  split at hsettings
  · cases hsettings
  dsimp only at hsettings
  split at hsettings
  · obtain ⟨method, -, hsettings⟩ := except_bind_eq_ok.1 hsettings
    cases hsettings
    exact failsOnly_toLinearSolve (Settings.errorsOnly_absolute _) (Settings.errorsOnly_relative _)
      (Settings.errorsOnly_limit _) b x
  · cases hsettings

end Solver

end Krylov

/-- The models of all descriptions are silent. -/
theorem ModelDescription.toModel_silent {d : ModelDescription ℝ} {m : Mesh ℝ} {named : NamedModel ℝ m.nodes}
    (h : d.toModel m = .ok named) : named.model.Silent := by
  unfold toModel at h
  obtain ⟨viscosity, -, h⟩ := except_bind_eq_ok.1 h
  obtain ⟨resistivity, -, h⟩ := except_bind_eq_ok.1 h
  obtain ⟨solver, -, h⟩ := except_bind_eq_ok.1 h
  obtain ⟨essential, -, h⟩ := except_bind_eq_ok.1 h
  obtain ⟨ess, -, h⟩ := except_bind_eq_ok.1 h
  obtain ⟨massSolver, hmass, h⟩ := except_bind_eq_ok.1 h
  obtain ⟨stiffnessSolver, -, h⟩ := except_bind_eq_ok.1 h
  obtain ⟨multigridSolver, -, h⟩ := except_bind_eq_ok.1 h
  obtain ⟨⟨preconditioner, settings⟩, -, h⟩ := except_bind_eq_ok.1 h
  obtain ⟨newton, hnewton, h⟩ := except_bind_eq_ok.1 h
  cases h
  -- of the solvers only that of the mass matrix takes part in an implicit step
  obtain ⟨hsettings, hlinear⟩ := Newton.Settings.failsOnly_ofNamed hnewton
  unfold SolverSettings.linearSolver at hmass
  obtain ⟨_, -, hmass⟩ := except_bind_eq_ok.1 hmass
  obtain ⟨_, -, hmass⟩ := except_bind_eq_ok.1 hmass
  split at hmass
  · cases hmass
  obtain ⟨_, -, hmass⟩ := except_bind_eq_ok.1 hmass
  exact ⟨Krylov.Solver.failsOnly_ofNamed hmass, hlinear, hsettings⟩

theorem NamedModel.withNewton_silent {n : ℕ} {named named' : NamedModel ℝ n} {newton : List (String × Value ℝ)}
    (hsilent : named.model.Silent) (h : named.withNewton newton = .ok named') : named'.model.Silent := by
  obtain ⟨settings, hsettings, h⟩ := except_bind_eq_ok.1 h
  cases h
  exact ⟨hsilent.mass, hsilent.linear, (Newton.Settings.failsOnly_ofNamed hsettings).1⟩

end Values

end Magnetofluid
