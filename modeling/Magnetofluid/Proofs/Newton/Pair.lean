import Mathlib
import Magnetofluid.Proofs.Newton.Solver
import Magnetofluid.Proofs.Pair

/-!
# Two runs of Newton's method

If the evaluations of a system do not tell two of its states apart, nor does Newton's method: what an earlier solve has
left in the progress is the last norm alone, and that is gone with the first residual.

* `Newton.State.Alike`: two iterations are at one iterate, and their progress and their systems are related.
* `Newton.agree_solve`: two solves from one iterate have the same answer, and the same progress when they end.
-/

namespace Magnetofluid.Newton

variable {n : ℕ} {σ : Type} {settings : Settings ℝ} {linear : LinearSolver ℝ n} {sys : System ℝ n σ}
  {P : Progress ℝ → Progress ℝ → Prop} {R : σ → σ → Prop}

/-- Two iterations are at one iterate, `P` relates their progress and `R` the states of their systems. -/
structure State.Alike (P : Progress ℝ → Progress ℝ → Prop) (R : σ → σ → Prop) (st st' : State ℝ n σ) : Prop where
  x : st.x = st'.x
  progress : P st.progress st'.progress
  inner : R st.inner st'.inner

/-- One progress, but for the last norm. -/
structure Progress.SameButNorm (p q : Progress ℝ) : Prop where
  converged : p.converged = q.converged
  iterations : p.iterations = q.iterations
  history : p.history = q.history
  events : p.events = q.events

theorem Progress.SameButNorm.of_eq {p q : Progress ℝ} (h : p = q) : p.SameButNorm q := by
  subst h
  exact ⟨rfl, rfl, rfl, rfl⟩

theorem agree_onSystem {α : Type} {act act' : EStateM (Failure ℝ) σ α} (h : Agree R R act act') :
    Agree (State.Alike P R) (State.Alike P R) (onSystem act : Action ℝ n σ α) (onSystem act') := by
  intro st st' hst
  have hrun := h _ _ hst.inner
  show SameAnswer _ (onSystem act st) (onSystem act' st')
  unfold onSystem
  revert hrun
  generalize act.run st.inner = r
  generalize act'.run st'.inner = r'
  rintro (⟨hinner⟩ | _)
  · exact .ok ⟨hst.x, hst.progress, hinner⟩
  · exact .error

theorem agree_report {event event' : Event ℝ} (h : event = event') :
    Agree (State.Alike Eq R) (State.Alike Eq R) (report event : Action ℝ n σ Unit) (report event') := by
  refine .modify fun st st' hst => ⟨hst.x, ?_, hst.inner⟩
  rw [h, hst.progress]

theorem agree_dampedStep (J : Sparse ℝ n n) (C : Krylov.Preconditioner ℝ n) (r : Vec ℝ n) :
    Agree (State.Alike Eq R) (State.Alike Eq R) (dampedStep settings linear J C r : Action ℝ n σ Unit)
      (dampedStep settings linear J C r) := by
  have hmove : ∀ answer : LinearStep ℝ n, Agree (State.Alike Eq R) (State.Alike Eq R) (do
      let alpha ← MonadExcept.ofExcept settings.alpha
      modify fun s => { s with
        x := Vec.subScaled s.x alpha answer.step
        progress.iterations := s.progress.iterations + 1 } : Action ℝ n σ Unit) (do
      let alpha ← MonadExcept.ofExcept settings.alpha
      modify fun s => { s with
        x := Vec.subScaled s.x alpha answer.step
        progress.iterations := s.progress.iterations + 1 }) := by
    intro answer
    refine .bind (.ofExcept _) fun alpha => .modify fun st st' hst => ⟨?_, ?_, hst.inner⟩
    · rw [hst.x]
    · rw [hst.progress]
  refine .bind (.ofExcept _) fun answer => ?_
  dsimp only
  split
  · exact .throw_bind _ _ _
  · split
    · refine .get_bind fun st st' hst => .bind (agree_report ?_) fun _ => hmove answer
      rw [hst.progress]
    · exact hmove answer

section System

variable (hresidual : ∀ x, Agree R R (sys.residual x) (sys.residual x))
  (hgradient : ∀ x, Agree R R (sys.gradient x) (sys.gradient x))
  (hbuild : ∀ build, sys.precondition = some build → ∀ J, Agree R R (build J) (build J))

include hresidual in
/-- The norm of the residual takes the place of the last one. -/
theorem agree_measure : Agree (State.Alike Progress.SameButNorm R) (State.Alike Eq R) (measure settings sys none)
    (measure settings sys none) := by
  have hless : Agree (State.Alike Progress.SameButNorm R) (State.Alike Progress.SameButNorm R)
      (residualLess sys none) (residualLess sys none) := by
    refine .get_bind fun st st' hst => ?_
    rw [hst.x]
    exact .bind (agree_onSystem (hresidual _)) fun _ => .pure _
  refine .bind hless fun r =>
    .bind (S := State.Alike Eq R) (.modify fun st st' hst => ⟨hst.x, ?_, hst.inner⟩) fun _ => ?_
  · obtain ⟨hconverged, hiterations, hhistory, hevents⟩ := hst.progress
    simp only [hconverged, hiterations, hhistory, hevents]
  · refine .bind (.discard (.ofExcept _)) fun _ => .get_bind fun st st' hst => .bind (agree_report ?_) fun _ => .pure _
    rw [hst.progress]

include hgradient hbuild in
theorem agree_advance (r : Vec ℝ n) :
    Agree (State.Alike Eq R) (State.Alike Eq R) (advance settings linear sys r) (advance settings linear sys r) := by
  rw [advance_eq]
  refine .get_bind fun st st' hst => ?_
  rw [hst.x]
  refine .bind (agree_onSystem (hgradient _)) fun J => ?_
  cases hprecondition : sys.precondition with
  | none => exact .bind (.pure _) fun C => agree_dampedStep J C r
  | some build => exact .bind (agree_onSystem (hbuild build hprecondition J)) fun C => agree_dampedStep J C r

include hresidual hgradient hbuild

theorem agree_iterate (steps : ℕ) (first? : Option ℝ) :
    Agree (State.Alike Progress.SameButNorm R) (State.Alike Eq R) (iterate settings linear sys none steps first?)
      (iterate settings linear sys none steps first?) := by
  have hconverged : ∀ norm : ℝ, Agree (State.Alike Eq R) (State.Alike Eq R) (do
      modify fun s => { s with progress.converged := true }
      report (.converged (← get).progress.iterations norm) : Action ℝ n σ Unit) (do
      modify fun s => { s with progress.converged := true }
      report (.converged (← get).progress.iterations norm)) := by
    intro norm
    refine .bind (S := State.Alike Eq R) (.modify fun st st' hst => ⟨hst.x, ?_, hst.inner⟩) fun _ => ?_
    · rw [hst.progress]
    refine .get_bind fun st st' hst => agree_report ?_
    rw [hst.progress]
  induction steps generalizing first? with
  | zero =>
    unfold iterate
    refine .bind (agree_measure hresidual) fun p => .bind (.ofExcept _) fun bound => ?_
    dsimp only
    split
    · exact hconverged _
    · refine .bind (.discard (.ofExcept _)) fun _ => .get_bind fun st st' hst => agree_report ?_
      rw [hst.progress]
  | succ steps ih =>
    unfold iterate
    refine .bind (agree_measure hresidual) fun p => .bind (.ofExcept _) fun bound => ?_
    dsimp only
    split
    · exact hconverged _
    · have hrest := ih (some (first?.getD p.2))
      exact .bind (agree_advance hgradient hbuild _) fun _ =>
        hrest.weaken (fun _ _ hst => ⟨hst.x, Progress.SameButNorm.of_eq hst.progress, hst.inner⟩) fun _ _ h => h

/-- Solves from one iterate agree whatever was solved before, and so does the progress that they make. -/
theorem agree_solve : Agree (State.Alike (fun _ _ => True) R) (State.Alike Eq R) (solve settings linear sys none)
    (solve settings linear sys none) :=
  .bind (.modify fun _ _ hst => ⟨hst.x, ⟨rfl, rfl, rfl, rfl⟩, hst.inner⟩) fun _ =>
    agree_iterate hresidual hgradient hbuild _ _

end System

end Magnetofluid.Newton
