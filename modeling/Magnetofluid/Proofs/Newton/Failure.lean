import Mathlib
import Magnetofluid.Proofs.Newton.Solver

/-!
# Causes of failures of Newton's method

An iteration fails where one of its parts does, or where the answer of a linear solve cannot be used.

* `Newton.Settings.FailsOnly`: a property of all causes with which a look at a setting can end.
* `Newton.failsOnly_solve`: the causes with which a solve can end.
-/

namespace Magnetofluid.Newton

variable {n : ℕ} {σ : Type} {settings : Settings ℝ} {linear : LinearSolver ℝ n} {sys : System ℝ n σ}

/-- The causes for which a setting that the iteration looks at cannot be used have a property. -/
structure Settings.FailsOnly (settings : Settings ℝ) (E : Failure ℝ → Prop) : Prop where
  verbose : ErrorsOnly E settings.verbose
  rtol : ErrorsOnly E settings.rtol
  atol : ErrorsOnly E settings.atol
  maxIter : ErrorsOnly E settings.maxIter
  alpha : ErrorsOnly E settings.alpha

section Causes

variable {E : Failure ℝ → Prop} (hsettings : settings.FailsOnly E)

theorem failsOnly_onSystem {α : Type} {act : EStateM (Failure ℝ) σ α} (h : FailsOnly E act) :
    FailsOnly E (onSystem act : Action ℝ n σ α) := by
  intro st e st' hfail
  obtain ⟨inner, hact, -⟩ := onSystem_eq_error.1 hfail
  exact h _ _ _ hact

include hsettings

theorem errorsOnly_bound (first : ℝ) : ErrorsOnly E (settings.bound first) :=
  .bind hsettings.rtol fun _ => .bind hsettings.atol fun _ => .ok _

theorem failsOnly_measure (hresidual : ∀ x, FailsOnly E (sys.residual x)) :
    FailsOnly E (measure settings sys none) := by
  refine .bind (.bind .get fun st => .bind (failsOnly_onSystem (hresidual st.x)) fun _ => .pure _) fun r => ?_
  refine .bind (.modify _) fun _ => .bind (.bind (.ofExcept hsettings.verbose) fun _ => .pure _) fun _ => ?_
  exact .bind .get fun _ => .bind (.modify _) fun _ => .pure _

variable (hunusable : ∀ info, E (.notConverged "Newton GMRES" 0 info))
  (hlinear : ∀ J P r, ErrorsOnly E (linear J P r))
include hunusable hlinear

theorem failsOnly_dampedStep (J : Sparse ℝ n n) (C : Krylov.Preconditioner ℝ n) (r : Vec ℝ n) :
    FailsOnly E (dampedStep settings linear J C r : Action ℝ n σ Unit) := by
  have hmove : ∀ answer : LinearStep ℝ n, FailsOnly E (do
      let alpha ← MonadExcept.ofExcept settings.alpha
      modify fun s => { s with
        x := Vec.subScaled s.x alpha answer.step
        progress.iterations := s.progress.iterations + 1 } : Action ℝ n σ Unit) :=
    fun _ => .bind (.ofExcept hsettings.alpha) fun _ => .modify _
  refine .bind (.ofExcept (hlinear J C r)) fun answer => ?_
  dsimp only
  split
  · exact .throw_bind (hunusable _) _
  · split
    · exact .bind .get fun _ => .bind (.modify _) fun _ => hmove answer
    · exact hmove answer

variable (hresidual : ∀ x, FailsOnly E (sys.residual x)) (hgradient : ∀ x, FailsOnly E (sys.gradient x))
  (hbuild : ∀ build, sys.precondition = some build → ∀ J, FailsOnly E (build J))
include hgradient hbuild

theorem failsOnly_advance (r : Vec ℝ n) : FailsOnly E (advance settings linear sys r) := by
  have hstep := failsOnly_dampedStep (σ := σ) hsettings hunusable hlinear
  rw [advance_eq]
  refine .bind .get fun st => .bind (failsOnly_onSystem (hgradient st.x)) fun J => ?_
  cases hprecondition : sys.precondition with
  | none => exact .bind (.pure _) fun C => hstep J C r
  | some build => exact .bind (failsOnly_onSystem (hbuild build hprecondition J)) fun C => hstep J C r

include hresidual

theorem failsOnly_iterate (steps : ℕ) (first? : Option ℝ) :
    FailsOnly E (iterate settings linear sys none steps first?) := by
  have hadvance := failsOnly_advance hsettings hunusable hlinear hgradient hbuild
  induction steps generalizing first? with
  | zero =>
    unfold iterate
    refine .bind (failsOnly_measure hsettings hresidual) fun p =>
      .bind (.ofExcept (errorsOnly_bound hsettings _)) fun bound => ?_
    dsimp only
    split
    · exact .bind (.modify _) fun _ => .bind .get fun _ => .modify _
    · exact .bind (.bind (.ofExcept hsettings.maxIter) fun _ => .pure _) fun _ => .bind .get fun _ => .modify _
  | succ steps ih =>
    unfold iterate
    refine .bind (failsOnly_measure hsettings hresidual) fun p =>
      .bind (.ofExcept (errorsOnly_bound hsettings _)) fun bound => ?_
    dsimp only
    split
    · exact .bind (.modify _) fun _ => .bind .get fun _ => .modify _
    · exact .bind (hadvance _) fun _ => ih _

/-- The causes with which a solve fails are those of its parts. -/
theorem failsOnly_solve : FailsOnly E (solve settings linear sys none) :=
  .bind (.modify _) fun _ => failsOnly_iterate hsettings hunusable hlinear hresidual hgradient hbuild _ _

end Causes

end Magnetofluid.Newton
