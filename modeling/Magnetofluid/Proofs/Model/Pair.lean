import Mathlib
import Magnetofluid.Proofs.Model.StepSystem
import Magnetofluid.Proofs.Newton.Pair

/-!
# Two runs of an evaluation

What an evaluation reads of the memory, when the systems that it solves have one solution each: forcing and step, and of
the current the essential values alone.  Guesses, brackets and the progress of earlier solves do not count.

* `Memory.Alike`: two memories have the same in what an evaluation reads.
* `Model.agree_rate`, `Model.agree_recoverCurrent`, `Model.agree_implicitRate`, `Model.agree_potential`: evaluations in
  such memories have the same answer.
* `Memory.Alike.keeps_of_retained`, `Model.keeps_recoverCurrent`, `Model.keeps_rate`: no evaluation changes any of it.
-/

namespace Magnetofluid

open Matrix

variable {n : ℕ}

/-! ### Solutions -/

/-- Two solves of one system with one right-hand side have one answer, whatever their guesses. -/
theorem Krylov.Exact.exists_answer {A : Sparse ℝ n n} {solve : LinearSolve ℝ n} (h : Exact A solve)
    (hA : Function.Injective (A.toMatrix *ᵥ ·)) (b x x' : Vec ℝ n) (r r' : Report ℝ) :
    ∃ y t t', (solve b x).run r = .ok y t ∧ (solve b x').run r' = .ok y t' := by
  obtain ⟨y, t, hy, hsolution⟩ := h b x r
  obtain ⟨y', t', hy', hsolution'⟩ := h b x' r'
  have hvalues : A.toMatrix *ᵥ y.values = A.toMatrix *ᵥ y'.values := by
    rw [← Sparse.values_mulVec, ← Sparse.values_mulVec, hsolution, hsolution']
  obtain rfl : y = y' := Vec.values_injective (hA hvalues)
  exact ⟨y, t, t', hy, hy'⟩

/-- The right-hand side of the system of the current has of the field that prescribes its values the essential ones
alone. -/
theorem CurrentRecovery.rhs_congr (r : CurrentRecovery ℝ n) (psi : Vec ℝ n) {j j' : Vec ℝ n}
    (h : ∀ i ∈ r.ess, j.values i = j'.values i) : r.rhs psi j = r.rhs psi j' := by
  have hrestrict : Vec.restrictTo r.ess j = Vec.restrictTo r.ess j' := by
    refine Vec.values_injective (funext fun i => ?_)
    rw [Vec.values_restrictTo, Vec.values_restrictTo, Pi.sub_apply, Pi.sub_apply]
    by_cases hi : i ∈ r.ess
    · rw [Essential.inner_of_mem hi, Essential.inner_of_mem hi, h i hi]
    · rw [Essential.inner_of_not_mem hi, Essential.inner_of_not_mem hi, sub_self, sub_self]
  refine Vec.values_injective (funext fun i => ?_)
  unfold rhs Sparse.eliminateRhs
  rw [Vec.values_overwriteOn, Vec.values_overwriteOn, hrestrict]
  split
  · exact h i ‹_›
  · rfl

/-! ### Memories -/

/-- Two memories have the same in all that an evaluation reads: of the current only the values on the essential nodes,
and steps that `Q` relates. -/
structure Memory.Alike (ess : Essential n) (Q : Option (Step ℝ n) → Option (Step ℝ n) → Prop) (mem mem' : Memory ℝ n) :
    Prop where
  current : ∀ i ∈ ess, mem.current.values i = mem'.current.values i
  forcing : mem.forcing = mem'.forcing
  step : Q mem.step.step mem'.step.step
  boundary : mem.step.boundary = mem'.step.boundary
  stepForcing : mem.step.forcing = mem'.step.forcing
  solvable : mem.solvable = mem'.solvable
  multigrid : mem.multigrid = mem'.multigrid

abbrev Step.Any : Option (Step ℝ n) → Option (Step ℝ n) → Prop := fun _ _ => True

namespace Memory.Alike

variable {ess : Essential n} {mem₀ mem mem' : Memory ℝ n}

theorem retained (h : mem₀.Alike ess Step.Any mem) (hretained : mem.Retained mem') : mem₀.Alike ess Step.Any mem' where
  current i hi := by rw [hretained.current, h.current i hi]
  forcing := by rw [hretained.forcing, h.forcing]
  step := trivial
  boundary := by rw [hretained.boundary, h.boundary]
  stepForcing := by rw [hretained.stepForcing, h.stepForcing]
  solvable := by rw [hretained.solvable, h.solvable]
  multigrid := by rw [hretained.multigrid, h.multigrid]

theorem keeps_of_retained {α : Type} {act : Action ℝ n α} (h : ∀ mem : Memory ℝ n, Keeps mem.Retained act) :
    Keeps (mem₀.Alike ess Step.Any) act := fun mem hmem => hmem.retained (h mem mem (.refl mem))

end Memory.Alike

namespace Model

variable {model : Model ℝ n} {Q : Option (Step ℝ n) → Option (Step ℝ n) → Prop} {mem₀ : Memory ℝ n}

/-! ### What the evaluations keep -/

section Keeping

variable (hmass : Krylov.Sound model.massSystem model.massSolve)
  (hsystem : model.massSystem = model.mass.eliminate model.ess)
include hmass hsystem

/-- A recovered current has the essential values of the current before. -/
theorem keeps_recoverCurrent (psi : Vec ℝ n) : Keeps (mem₀.Alike model.ess Step.Any) (model.recoverCurrent psi) := by
  intro mem hmem
  unfold stateAfter
  cases hrun : (model.recoverCurrent psi).run mem with
  | ok j after =>
    obtain ⟨hj, r, rfl⟩ := recoverCurrent_ok hmass hsystem hrun
    exact { hmem with current := fun i hi => (hmem.current i hi).trans (hj.1 i hi).symm }
  | error e after =>
    unfold recoverCurrent at hrun
    rw [run_get_bind] at hrun
    rcases run_bind_eq_error.1 hrun with hsolve | ⟨j, u, -, hrest⟩
    · have hkeeps : Keeps (mem₀.Alike model.ess Step.Any) (withMass (model.recovery.recover psi mem.current)) :=
        keeps_withMass (fun _ _ h => { h with }) _
      exact hkeeps.of_run_error hmem hsolve
    · rw [run_modify_bind] at hrest
      exact absurd hrest run_pure_ne_error

theorem keeps_rate (x : State ℝ n) : Keeps (mem₀.Alike model.ess Step.Any) (model.rate x) := by
  have hsolve : ∀ load, Keeps (mem₀.Alike model.ess Step.Any) (model.solveRate load) :=
    fun load => keeps_withMass (fun _ _ h => { h with }) _
  refine .bind (.modify fun _ h => { h with }) fun _ => .bind (keeps_recoverCurrent hmass hsystem _) fun j => ?_
  exact .bind .get fun _ => .bind (hsolve _) fun psi => .bind (hsolve _) fun w => .pure _

end Keeping

theorem keeps_setStep (dt : Number ℝ) (x : State ℝ n) :
    Keeps (mem₀.Alike model.ess Step.Any) (setStep dt x) := by
  unfold setStep
  split
  · exact .modify fun _ h => { h with step := trivial }
  · exact .throw _

theorem keeps_implicitRate (dt : Number ℝ) (x : State ℝ n) :
    Keeps (mem₀.Alike model.ess Step.Any) (model.implicitRate dt x) := by
  refine .bind (keeps_setStep dt x) fun _ =>
    .bind (Memory.Alike.keeps_of_retained fun _ => keeps_solveStep x) fun y => .bind .get fun after => ?_
  dsimp only
  split
  · exact .pure _
  · exact .throw_bind _ _

/-- The stream function is found by the solve that is there, and the memory stays. -/
theorem potential_run (x : State ℝ n) (mem : Memory ℝ n) : (model.potential x).run mem =
    match model.potentialSolve? mem with
    | none => .error (if model.multigridSolve.isSome then .amgReleased else .noMatrix) mem
    | some solve =>
      match (solve (model.potentialLoad x.w) x.phi).run .fresh with
      | .ok phi _ => .ok phi mem
      | .error e _ => .error e mem := by
  unfold potential potentialSolve?
  rw [run_get_bind]
  cases model.multigridSolve with
  | none =>
    cases mem.solvable with
    | false => rfl
    | true =>
      simp only [if_true, run_pure_bind]
      cases (model.stiffnessSolve (model.potentialLoad x.w) x.phi).run .fresh with
      | ok phi r => rfl
      | error e r => rfl
  | some solve =>
    cases mem.multigrid with
    | false => rfl
    | true =>
      simp only [if_true, run_pure_bind]
      cases (solve (model.potentialLoad x.w) x.phi).run .fresh with
      | ok phi r => rfl
      | error e r => rfl

theorem keeps_potential (x : State ℝ n) : Keeps (mem₀.Alike model.ess Step.Any) (model.potential x) := by
  intro mem hmem
  unfold stateAfter
  rw [potential_run]
  cases model.potentialSolve? mem with
  | none => exact hmem
  | some solve =>
    dsimp only
    cases (solve (model.potentialLoad x.w) x.phi).run .fresh with
    | ok phi r => exact hmem
    | error e r => exact hmem

/-! ### One answer -/

section Reading

variable {S : Memory ℝ n → Memory ℝ n → Prop}

theorem readyStep_run (mem : Memory ℝ n) : (readyStep : Action ℝ n _).run mem =
    match mem.step.step, mem.step.boundary with
    | none, _ => .error .noStep mem
    | some _, .unset => .error .noCurrent mem
    | some step, .model => .ok (step, mem.current) mem
    | some step, .given j => .ok (step, j) mem := by
  unfold readyStep
  rw [run_get_bind]
  cases mem.step.step with
  | none => rfl
  | some step =>
    cases mem.step.boundary with
    | unset => rfl
    | model => rfl
    | given j => rfl

/-- What follows is told the same step, and fields with the same essential values. -/
theorem agree_readyStep_bind {α : Type} {ess : Essential n} {f g : Step ℝ n × Vec ℝ n → Action ℝ n α}
    (hfg : ∀ step b b', (∀ i ∈ ess, b.values i = b'.values i) →
      Agree (Memory.Alike ess Eq) S (f (step, b)) (g (step, b'))) :
    Agree (Memory.Alike ess Eq) S (readyStep >>= f) (readyStep >>= g) := by
  intro mem mem' h
  rw [EStateM.run_bind, EStateM.run_bind, readyStep_run, readyStep_run, ← h.step, ← h.boundary]
  cases mem.step.step with
  | none => exact .error
  | some step =>
    cases mem.step.boundary with
    | unset => exact .error
    | model => exact hfg step _ _ h.current mem mem' h
    | given j => exact hfg step _ _ (fun _ _ => rfl) mem mem' h

theorem agree_setStep {ess : Essential n} (dt : Number ℝ) (x : State ℝ n) :
    Agree (Memory.Alike ess Step.Any) (Memory.Alike ess Eq) (setStep dt x) (setStep dt x) := by
  unfold setStep
  split
  · exact .modify fun _ _ h => { h with step := rfl }
  · exact .throw _

theorem agree_gradient (x : State ℝ n) :
    Agree (Memory.Alike model.ess Eq) (Memory.Alike model.ess Eq) (model.gradient x) (model.gradient x) := by
  refine agree_readyStep_bind fun step b b' _ => ?_
  refine .bind (S := Memory.Alike model.ess Eq) (.modify fun _ _ h => { h with }) fun _ => ?_
  dsimp only
  split
  · exact .throw_bind _ _ _
  · exact .pure _

end Reading

section Solving

variable (hmass : Krylov.Exact model.massSystem model.massSolve)
  (hinjective : Function.Injective (model.massSystem.toMatrix *ᵥ ·))
include hmass hinjective

theorem agree_withMass (b x x' : Vec ℝ n) {ess : Essential n} :
    Agree (Memory.Alike ess Q) (Memory.Alike ess Q) (withMass (model.massSolve b x))
      (withMass (model.massSolve b x')) := by
  intro mem mem' h
  show SameAnswer _ (withMass (model.massSolve b x) mem) (withMass (model.massSolve b x') mem')
  unfold withMass
  rw [← h.solvable]
  cases hsolvable : mem.solvable with
  | false => exact .error
  | true =>
    obtain ⟨y, r, r', hy, hy'⟩ := hmass.exists_answer hinjective b x x' mem.massReport mem'.massReport
    simp only [hy, hy', if_true]
    exact .ok { h with solvable := rfl }

theorem agree_recoverCurrent (psi : Vec ℝ n) :
    Agree (Memory.Alike model.ess Q) (Memory.Alike model.ess Q) (model.recoverCurrent psi)
      (model.recoverCurrent psi) := by
  refine .get_bind fun mem mem' h => ?_
  have hrhs : model.recovery.rhs psi mem.current = model.recovery.rhs psi mem'.current :=
    CurrentRecovery.rhs_congr _ _ h.current
  unfold CurrentRecovery.recover
  rw [hrhs]
  refine .bind (agree_withMass hmass hinjective _ _ _) fun j => ?_
  exact .bind (.modify fun _ _ h => { h with current := fun _ _ => rfl }) fun _ => .pure _

theorem agree_rate (x : State ℝ n) :
    Agree (Memory.Alike model.ess Q) (Memory.Alike model.ess Q) (model.rate x) (model.rate x) := by
  have hsolve : ∀ load, Agree (Memory.Alike model.ess Q) (Memory.Alike model.ess Q) (model.solveRate load)
      (model.solveRate load) := fun load => agree_withMass hmass hinjective _ _ _
  refine .bind (S := Memory.Alike model.ess Q) (.modify fun _ _ h => { h with }) fun _ => ?_
  refine .bind (agree_recoverCurrent hmass hinjective _) fun j => .get_bind fun mem mem' h => ?_
  rw [h.forcing]
  exact .bind (hsolve _) fun psi => .bind (hsolve _) fun w => .pure _

theorem agree_residual (x : State ℝ n) :
    Agree (Memory.Alike model.ess Eq) (Memory.Alike model.ess Eq) (model.residual x) (model.residual x) := by
  refine agree_readyStep_bind fun step b b' hb => ?_
  refine .bind (S := Memory.Alike model.ess Eq) (.modify fun _ _ h => { h with }) fun _ => ?_
  refine .get_bind fun mem mem' h => ?_
  have hrhs : model.recovery.rhs x.psi (Vec.overwriteOn model.ess b mem.step.current) =
      model.recovery.rhs x.psi (Vec.overwriteOn model.ess b' mem'.step.current) := by
    refine CurrentRecovery.rhs_congr _ _ fun i hi => ?_
    have hess : i ∈ model.ess := hi
    rw [Vec.values_overwriteOn, Vec.values_overwriteOn, if_pos hess, if_pos hess, hb i hess]
  unfold CurrentRecovery.recoverWith CurrentRecovery.recover
  dsimp only [recovery] at hrhs ⊢
  rw [hrhs]
  refine .bind (agree_withMass hmass hinjective _ _ _) fun j => ?_
  refine .bind (S := Memory.Alike model.ess Eq) (.modify fun _ _ h => { h with }) fun _ => ?_
  refine .bind (.discard (.ofExcept _)) fun _ => .get_bind fun mem mem' h => ?_
  rw [h.stepForcing]
  exact .pure _

/-- Newton's method finds the same state, and tells the same of its progress. -/
theorem agree_solveStep (x : State ℝ n) :
    Agree (Memory.Alike model.ess Eq) (fun mem mem' => mem.Alike model.ess Eq mem' ∧ mem.newton = mem'.newton)
      (model.solveStep x) (model.solveStep x) := by
  have hresidual : ∀ v, Agree (Memory.Alike model.ess Eq) (Memory.Alike model.ess Eq) (model.system.residual v)
      (model.system.residual v) :=
    fun v => .bind (agree_residual hmass hinjective (State.ofVec v)) fun _ => .pure _
  have hbuild : ∀ build, model.system.precondition = some build → ∀ J,
      Agree (Memory.Alike model.ess Eq) (Memory.Alike model.ess Eq) (build J) (build J) := by
    intro build hbuild J
    obtain rfl := Option.some.inj hbuild
    exact .bind (S := Memory.Alike model.ess Eq) (.modify fun _ _ h => { h with }) fun _ => .ofExcept _
  intro mem mem' h
  have hsolve : Agree (Newton.State.Alike (fun _ _ => True) (Memory.Alike model.ess Eq))
      (Newton.State.Alike Eq (Memory.Alike model.ess Eq)) (Newton.solve model.newton model.linear model.system none)
      (Newton.solve model.newton model.linear model.system none) :=
    Newton.agree_solve hresidual (fun v => agree_gradient (State.ofVec v)) hbuild
  have hrun := hsolve ⟨x.toVec, mem.newton, mem⟩ ⟨x.toVec, mem'.newton, mem'⟩ ⟨rfl, trivial, h⟩
  show SameAnswer _ (model.solveStep x mem) (model.solveStep x mem')
  unfold solveStep
  revert hrun
  generalize (Newton.solve model.newton model.linear model.system none).run ⟨x.toVec, mem.newton, mem⟩ = r
  generalize (Newton.solve model.newton model.linear model.system none).run ⟨x.toVec, mem'.newton, mem'⟩ = r'
  rintro (⟨hx, hprogress, hinner⟩ | _)
  · dsimp only
    rw [hx]
    exact .ok ⟨{ hinner with }, hprogress⟩
  · exact .error

theorem agree_implicitRate (dt : Number ℝ) (x : State ℝ n) :
    Agree (Memory.Alike model.ess Step.Any) (Memory.Alike model.ess Eq) (model.implicitRate dt x)
      (model.implicitRate dt x) := by
  refine .bind (agree_setStep dt x) fun _ => .bind (agree_solveStep hmass hinjective x) fun y => ?_
  refine .get_bind fun mem mem' h => ?_
  rw [h.2]
  dsimp only
  split
  · exact (Agree.pure _).weaken (fun _ _ h => h.1) fun _ _ h => h
  · exact .throw_bind _ _ _

end Solving

/-- The stream function depends on the vorticity alone. -/
theorem agree_potential (hsolves : ∀ solve, model.IsStiffnessSolve solve → Krylov.Exact model.stiffnessSystem solve)
    (hinjective : Function.Injective (model.stiffnessSystem.toMatrix *ᵥ ·)) {x x' : State ℝ n} (hw : x.w = x'.w) :
    Agree (Memory.Alike model.ess Q) (Memory.Alike model.ess Q) (model.potential x) (model.potential x') := by
  intro mem mem' h
  have hsame : model.potentialSolve? mem' = model.potentialSolve? mem := by
    unfold potentialSolve?
    rw [h.solvable, h.multigrid]
  rw [potential_run, potential_run, hsame, ← hw]
  cases hsolve : model.potentialSolve? mem with
  | none => exact .error
  | some solve =>
    obtain ⟨phi, r, r', hphi, hphi'⟩ := (hsolves solve (isStiffnessSolve_of_potentialSolve hsolve)).exists_answer
      hinjective (model.potentialLoad x.w) x.phi x'.phi .fresh .fresh
    dsimp only
    rw [hphi, hphi']
    exact .ok h

end Model

end Magnetofluid
