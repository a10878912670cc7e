import Mathlib
import Magnetofluid.Proofs.Linear.Sparse
import Magnetofluid.Proofs.Newton.Contract

/-!
# Damped steps

A step of which the fraction `alpha` is taken leaves the fraction `1 - alpha` of every part of the residual that is
linear in the iterate.

* `Newton.Exact`: a linear solver that solves every system that is not singular.
* `Newton.Course.residual_eq`: along the iterates of an affine system the residual is a geometric sequence.
* `Newton.solve_affine`: so a solve of an affine system converges after as many steps as that sequence needs.
* `Newton.solve_of_steps`: what each step makes of the iterate holds after a solve, be it that it succeeds or fails.
-/

namespace Magnetofluid

variable {n : ℕ}

theorem Vec.norm_scale (c : ℝ) (v : Vec ℝ n) : norm (scale c v) = |c| * norm v := by
  unfold norm
  rw [dot_eq, dot_eq, values_scale, smul_dotProduct, dotProduct_smul, smul_eq_mul, smul_eq_mul, ← mul_assoc,
    Scalar.sqrt_real, Scalar.sqrt_real, Real.sqrt_mul (mul_self_nonneg c), Real.sqrt_mul_self_eq_abs]

namespace Newton

variable {σ : Type} {settings : Settings ℝ} {linear : LinearSolver ℝ n} {sys : System ℝ n σ}

/-! ### Affine systems -/

/-- A linear solver that answers with the solution where the matrix is not singular. -/
def Exact (linear : LinearSolver ℝ n) : Prop :=
  ∀ J P r, IsUnit J.toMatrix → ∃ answer, linear J P r = .ok answer ∧ 0 ≤ answer.info ∧ J.mulVec answer.step = r

/-- A damped step that solves the linear part leaves a fraction of the residual. -/
theorem less_affine_subScaled {A : Sparse ℝ n n} {c x step : Vec ℝ n} (b : Option (Vec ℝ n)) (alpha : ℝ)
    (hstep : A.mulVec step = less b (A.mulVec x + c)) :
    less b (A.mulVec (Vec.subScaled x alpha step) + c) = Vec.scale (1 - alpha) (less b (A.mulVec x + c)) := by
  have hmove : less b (A.mulVec (Vec.subScaled x alpha step) + c) =
      Vec.subScaled (less b (A.mulVec x + c)) alpha (A.mulVec step) := by
    refine Vec.values_injective ?_
    cases b with
    | none =>
      simp only [less, Vec.values_add, Vec.values_subScaled, Sparse.values_mulVec, Matrix.mulVec_sub,
        Matrix.mulVec_smul]
      abel
    | some b =>
      simp only [less, Vec.values_add, Vec.values_sub, Vec.values_subScaled, Sparse.values_mulVec, Matrix.mulVec_sub,
        Matrix.mulVec_smul]
      abel
  refine hmove.trans (Vec.values_injective ?_)
  rw [hstep, Vec.values_subScaled, Vec.values_scale, sub_smul, one_smul]

section Affine

variable {A : Sparse ℝ n n} {c : Vec ℝ n} (hgradient : ∀ x s J s', (sys.gradient x).run s = .ok J s' → J = A)
  (hA : IsUnit A.toMatrix) (hlinear : Exact linear)
include hgradient hA hlinear

theorem Exact.answering (Q : σ → Prop) : Answering sys Q linear := by
  intro x s _ J P s' hlinearisation r
  obtain ⟨t, hJ, -⟩ := System.linearisation_eq_ok.1 hlinearisation
  rw [hgradient x s J t hJ]
  obtain ⟨answer, hanswer, -⟩ := hlinear A P r hA
  exact ⟨answer, hanswer⟩

/-- Every answer to a linearisation of the system can be used, and it is the solution. -/
theorem Exact.of_answers {x r : Vec ℝ n} {answer : LinearStep ℝ n} {s s' : σ}
    (h : Answers sys linear s x r answer s') : 0 ≤ answer.info ∧ A.mulVec answer.step = r := by
  obtain ⟨J, P, hlinearisation, hanswer⟩ := h
  obtain ⟨t, hJ, -⟩ := System.linearisation_eq_ok.1 hlinearisation
  rw [hgradient x s J t hJ] at hanswer
  obtain ⟨answer', hanswer', hinfo, hstep⟩ := hlinear A P r hA
  obtain rfl : answer' = answer := Except.ok.inj (hanswer'.symm.trans hanswer)
  exact ⟨hinfo, hstep⟩

theorem Course.residual_eq {b : Option (Vec ℝ n)} {alpha bound : ℝ} {k : ℕ} {xs : ℕ → Vec ℝ n} {ss : ℕ → σ}
    {st st' : State ℝ n σ}
    (h : Course (sys.less b) linear (fun x => less b (A.mulVec x + c)) alpha bound k xs ss st st') {i : ℕ}
    (hi : i ≤ k) :
    less b (A.mulVec (xs i) + c) = Vec.scale ((1 - alpha) ^ i) (less b (A.mulVec st.x + c)) := by
  induction i with
  | zero =>
    rw [h.start, pow_zero]
    refine Vec.values_injective ?_
    rw [Vec.values_scale, one_smul]
  | succ i ih =>
    obtain ⟨answer, s', hanswer, -, hx, -⟩ := h.step i hi
    obtain ⟨-, hsolution⟩ := Exact.of_answers hgradient hA hlinear hanswer
    rw [hx, less_affine_subScaled b alpha hsolution, ih (Nat.le_of_succ_le hi)]
    refine Vec.values_injective ?_
    rw [Vec.values_scale, Vec.values_scale, Vec.values_scale, smul_smul, pow_succ']

/-- A solve of an affine system ends within the bound or with its last step.  Its residuals up to there are a geometric
sequence, and none before the last one is within the bound. -/
theorem solve_affine {Q : σ → Prop} (hsys : sys.Computes Q fun x => A.mulVec x + c) {rtol atol alpha : ℝ} {limit : ℤ}
    (hsettings : settings.Given rtol atol alpha limit) (halpha : alpha ≤ 1) (b : Option (Vec ℝ n)) (x : Vec ℝ n)
    (p : Progress ℝ) (s : σ) (hs : Q s) {r : Vec ℝ n} (hr : less b (A.mulVec x + c) = r) {bound : ℝ}
    (hbound : max (rtol * Vec.norm r) atol = bound) :
    ∃ (k : ℕ) (st : State ℝ n σ), (solve settings linear sys b).run ⟨x, p, s⟩ = .ok () st ∧ st.progress.iterations = k ∧
      less b (A.mulVec st.x + c) = Vec.scale ((1 - alpha) ^ k) r ∧
      st.progress.history.reverse = (List.range (k + 1)).map (fun i => (1 - alpha) ^ i * Vec.norm r) ∧
      (∀ i < k, bound < (1 - alpha) ^ i * Vec.norm r) ∧
      (st.progress.converged = true ∧ (k : ℤ) ≤ max limit 0 ∧ (1 - alpha) ^ k * Vec.norm r ≤ bound ∨
        st.progress.converged = false ∧ (k : ℤ) = max limit 0 ∧ bound < (1 - alpha) ^ k * Vec.norm r) := by
  have hanswering : Answering (sys.less b) Q linear := Exact.answering hgradient hA hlinear Q
  obtain ⟨k, xs, ss, st, hcourse, hend⟩ := solve_run (hsys.less b) hsettings hanswering x p s hs
  rw [hr, hbound] at hcourse hend
  have hresidual : ∀ i ≤ k, less b (A.mulVec (xs i) + c) = Vec.scale ((1 - alpha) ^ i) r := by
    intro i hi
    rw [hcourse.residual_eq hgradient hA hlinear hi, hr]
  have hnorm : ∀ i ≤ k, Vec.norm (less b (A.mulVec (xs i) + c)) = (1 - alpha) ^ i * Vec.norm r := by
    intro i hi
    rw [hresidual i hi, Vec.norm_scale, abs_of_nonneg (pow_nonneg (sub_nonneg.2 halpha) i)]
  have hsteps := steps_eq hsettings.maxIter
  rw [← solve_eq_less, hnorm k le_rfl] at hend
  rcases hend with ⟨hrun, -, hend⟩ | ⟨answer, hanswer, hinfo, -⟩
  · refine ⟨k, st, hrun, hcourse.iterations.trans (Nat.zero_add k), ?_, ?_, fun i hi => ?_, ?_⟩
    · rw [hcourse.stop]
      exact hresidual k le_rfl
    · refine hcourse.history.trans (List.map_congr_left fun i hi => ?_)
      exact hnorm i (Nat.le_of_lt_succ (List.mem_range.1 hi))
    · rw [← hnorm i hi.le]
      exact hcourse.outside i hi
    · rcases hend with ⟨hconverged, hle, hk⟩ | ⟨hconverged, hlt, hk⟩
      · exact .inl ⟨hconverged, by omega, hle⟩
      · exact .inr ⟨hconverged, by omega, hlt⟩
  · obtain ⟨husable, -⟩ := Exact.of_answers hgradient hA hlinear hanswer
    exact absurd hinfo husable.not_gt

end Affine

/-! ### What each step makes of the iterate -/

section Steps

variable {P : Vec ℝ n → ℕ → Prop}

theorem keeps_iterate_onSystem {α : Type} (act : EStateM (Failure ℝ) σ α) :
    Keeps (fun st : State ℝ n σ => P st.x st.progress.iterations) (onSystem act) := by
  intro st hst
  unfold stateAfter
  rw [run_onSystem]
  cases act.run st.inner with
  | ok a s => exact hst
  | error e s => exact hst

theorem keeps_iterate_measure :
    Keeps (fun st : State ℝ n σ => P st.x st.progress.iterations) (measure settings sys none) := by
  refine .bind (.bind .get fun st => .bind (keeps_iterate_onSystem _) fun _ => .pure _) fun r => ?_
  refine .bind (.modify fun _ h => h) fun _ => .bind (.bind (.ofExcept _) fun _ => .pure _) fun _ => ?_
  exact .bind .get fun _ => .bind (.modify fun _ h => h) fun _ => .pure _

/-- An advance that fails leaves the iterate where it is. -/
theorem advance_leads (r : Vec ℝ n) :
    Leads (fun st : State ℝ n σ => P st.x st.progress.iterations) (advance settings linear sys r) (fun _ _ => True)
      fun st => P st.x st.progress.iterations := by
  have hstep : ∀ J C, Leads (fun st : State ℝ n σ => P st.x st.progress.iterations)
      (dampedStep settings linear J C r) (fun _ _ => True) fun st => P st.x st.progress.iterations := by
    intro J C
    refine .bind (.of_keeps (.ofExcept _)) fun answer => ?_
    dsimp only
    split
    · exact .throw_bind _ _
    · split
      · refine .bind (.of_keeps .get) fun _ => .bind (.of_keeps (.modify fun _ h => h)) fun _ => ?_
        exact .bind (.of_keeps (.ofExcept _)) fun _ => .modify fun _ _ => trivial
      · exact .bind (.of_keeps (.ofExcept _)) fun _ => .modify fun _ _ => trivial
  rw [advance_eq]
  refine .bind (.of_keeps .get) fun st => .bind (.of_keeps (keeps_iterate_onSystem _)) fun J => ?_
  cases sys.precondition with
  | none => exact .bind (.of_keeps (.pure _)) fun C => hstep J C
  | some build => exact .bind (.of_keeps (keeps_iterate_onSystem _)) fun C => hstep J C

variable (hlinear : Sound linear)
  (hstep : ∀ x k s r s' t J t' step alpha, P x k → (sys.residual x).run s = .ok r s' →
    (sys.gradient x).run t = .ok J t' → J.mulVec step = r → settings.alpha = .ok alpha →
    P (Vec.subScaled x alpha step) (k + 1))
include hlinear hstep

theorem advance_leads_of_step (r : Vec ℝ n) :
    Leads (fun st : State ℝ n σ => P st.x st.progress.iterations ∧ ∃ s s', (sys.residual st.x).run s = .ok r s')
      (advance settings linear sys r) (fun _ st => P st.x st.progress.iterations)
      fun st => P st.x st.progress.iterations := by
  constructor
  · rintro st u st' ⟨hst, s, s', hr⟩ h
    obtain ⟨J, C, t, answer, hJ, hanswer, hmoved, -⟩ := advance_ok h
    obtain ⟨alpha, halpha, hx⟩ := hmoved.x
    rw [hx, hmoved.iterations]
    exact hstep _ _ _ _ _ _ _ _ _ _ hst hr hJ (hlinear _ _ _ _ hanswer hmoved.info) halpha
  · rintro st e st' ⟨hst, -⟩ h
    exact (advance_leads r).error st e st' hst h

theorem keeps_iterate_of_steps (steps : ℕ) (first? : Option ℝ) :
    Keeps (fun st : State ℝ n σ => P st.x st.progress.iterations) (iterate settings linear sys none steps first?) := by
  induction steps generalizing first? with
  | zero =>
    unfold iterate
    refine .bind keeps_iterate_measure fun p => .bind (.ofExcept _) fun bound => ?_
    dsimp only
    split
    · exact .bind (.modify fun _ h => h) fun _ => .bind .get fun _ => .modify fun _ h => h
    · exact .bind (.bind (.ofExcept _) fun _ => .pure _) fun _ => .bind .get fun _ => .modify fun _ h => h
  | succ steps ih =>
    unfold iterate
    -- what follows the evaluation has to know that its residual is the one at the iterate
    have hmeasure : Leads (fun st : State ℝ n σ => P st.x st.progress.iterations) (measure settings sys none)
        (fun p st => P st.x st.progress.iterations ∧ ∃ s s', (sys.residual st.x).run s = .ok p.1 s')
        fun st => P st.x st.progress.iterations := by
      refine ⟨fun st p st' hst h => ?_, fun st e st' hst h => keeps_iterate_measure.of_run_error hst h⟩
      obtain ⟨-, inner, hr, -, rfl⟩ := measure_eq_ok.1 h
      exact ⟨hst, _, _, hr⟩
    refine Leads.keeps (.bind hmeasure fun p => ?_)
    have hlook : ∀ x : Except (Failure ℝ) ℝ, Leads
        (fun st : State ℝ n σ => P st.x st.progress.iterations ∧ ∃ s s', (sys.residual st.x).run s = .ok p.1 s')
        (MonadExcept.ofExcept x : Action ℝ n σ ℝ)
        (fun _ st => P st.x st.progress.iterations ∧ ∃ s s', (sys.residual st.x).run s = .ok p.1 s')
        fun st => P st.x st.progress.iterations := by
      intro x
      refine ⟨fun st a st' hst h => ?_, fun st e st' hst h => ?_⟩
      · obtain ⟨-, rfl⟩ := run_ofExcept_eq_ok.1 h
        exact hst
      · obtain ⟨-, rfl⟩ := run_ofExcept_eq_error.1 h
        exact hst.1
    refine .bind (hlook _) fun bound => ?_
    dsimp only
    split
    · refine .bind (.modify (Q := fun _ st => P st.x st.progress.iterations) fun _ h => h.1) fun _ => ?_
      exact .of_keeps (.bind .get fun _ => .modify fun _ h => h)
    · exact .bind (advance_leads_of_step hlinear hstep _) fun _ => .of_keeps (ih _)

/-- What each damped step against the residual makes of iterate and number of steps holds after a solve, whether it
succeeds or fails. -/
theorem solve_of_steps (st : State ℝ n σ) (hst : P st.x 0) :
    P (stateAfter (solve settings linear sys none) st).x
      (stateAfter (solve settings linear sys none) st).progress.iterations := by
  have hiterate := keeps_iterate_of_steps (n := n) (σ := σ) hlinear hstep settings.steps none
    { st with progress := { Progress.none with norm := st.progress.norm } } hst
  unfold stateAfter solve reset at *
  rw [run_modify_bind]
  exact hiterate

end Steps

end Newton

end Magnetofluid
