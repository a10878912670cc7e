import Mathlib
import Magnetofluid.Proofs.Model.Jacobian
import Magnetofluid.Proofs.Newton.Damping

/-!
# Damped steps of the model

The residual of a step of the model is not linear, but its constraint is, and the linearisation has the constraint as it
is; so a damped step leaves the same fraction of the constraint as of the residual of an affine system.  Essential
entries are not moved at all.

* `Model.Contracted.step`: what one damped step makes of the constraint and of the essential entries.
* `Model.damped_contraction`: what a solve makes of the residual of an affine system, and of the constraint of a model.
-/

namespace Magnetofluid

variable {n : ℕ}

namespace Newton

variable {σ : Type} {sys : System ℝ n σ}

theorem direct_isExact : Exact (direct (n := n)) := by
  intro J P r hJ
  refine ⟨⟨_, 0⟩, if_pos hJ, le_rfl, Krylov.mulVec_inverse hJ r⟩

end Newton

namespace Model

variable {model : Model ℝ n} {mem mem' : Memory ℝ n}

noncomputable def constraint (model : Model ℝ n) (x : Vec ℝ (3 * n)) : Vec ℝ n :=
  model.stiffnessSystem.mulVec (State.ofVec x).phi + model.massSystem.mulVec (State.ofVec x).w

/-- A vector of blocks agrees with another one on the essential nodes, and its constraint is that of the other one times
a factor. -/
structure Contracted (model : Model ℝ n) (factor : ℝ) (x y : Vec ℝ (3 * n)) : Prop where
  essential : ∀ b, ∀ i ∈ model.ess, y.get (State.place b i) = x.get (State.place b i)
  constraint : ∀ i ∉ model.ess, (model.constraint y).get i = factor * (model.constraint x).get i

theorem constraint_subScaled (x step : Vec ℝ (3 * n)) (alpha : ℝ) :
    (model.constraint (Vec.subScaled x alpha step)).values =
      (model.constraint x).values - alpha • (model.constraint step).values := by
  have hphi := State.values_ofVec_subScaled x alpha step .potential
  have hw := State.values_ofVec_subScaled x alpha step .vorticity
  simp only [State.block] at hphi hw
  simp only [constraint, Vec.values_add, Sparse.values_mulVec, hphi, hw, Matrix.mulVec_sub, Matrix.mulVec_smul]
  module

/-- A damped step against the residual keeps the essential entries and leaves a fraction of the constraint. -/
theorem Contracted.step {factor alpha : ℝ} {x y r step : Vec ℝ (3 * n)} {J : Sparse ℝ (3 * n) (3 * n)}
    {before after before' after' : Memory ℝ n} (h : model.Contracted factor x y)
    (hr : (model.system.residual y).run before = .ok r after)
    (hJ : (model.system.gradient y).run before' = .ok J after')
    (hstep : J.mulVec step = r) : model.Contracted ((1 - alpha) * factor) x (Vec.subScaled y alpha step) := by
  obtain ⟨z, hz, rfl⟩ := system_residual_ok hr
  obtain ⟨s, _, j, _, -, -, -, -, rfl, -⟩ := residual_eq_ok.1 hz
  obtain ⟨s', rfl, -⟩ := gradient_ok hJ
  have hessential : ∀ b, ∀ i ∈ model.ess, step.values (State.place b i) = 0 := by
    intro b i hi
    rw [← s'.gradient_mulVec_of_mem model.toOperators _ step b hi, hstep, State.values_toVec]
    exact residual_zeroOn _ _ _ _ _ _ _ b i hi
  have hconstraint : ∀ i ∉ model.ess, (model.constraint step).values i = (model.constraint y).values i := by
    intro i hi
    have hrow := s'.gradient_mulVec_potential model.toOperators (model.bracket (State.ofVec y).phi) step hi
    rw [hstep, State.values_toVec] at hrow
    refine hrow.symm.trans ?_
    show (Vec.zeroOn model.ess _).values i = _
    rw [Vec.values_zeroOn, Essential.inner_of_not_mem hi]
    rfl
  refine ⟨fun b i hi => ?_, fun i hi => ?_⟩
  · refine Eq.trans ?_ (h.essential b i hi)
    show (Vec.subScaled y alpha step).values _ = y.values _
    rw [Vec.values_subScaled, Pi.sub_apply, Pi.smul_apply, hessential b i hi, smul_zero, sub_zero]
  · show (model.constraint (Vec.subScaled y alpha step)).values i = _
    rw [constraint_subScaled, Pi.sub_apply, Pi.smul_apply, hconstraint i hi, smul_eq_mul]
    have hy : (model.constraint y).values i = factor * (model.constraint x).get i := h.constraint i hi
    rw [hy]
    ring

/-- A solve, be it that it succeeds or fails, keeps the essential entries and leaves a fraction of the constraint for
each of its steps. -/
theorem contracted_solve (hlinear : Newton.Sound model.linear) {alpha : ℝ} (halpha : model.newton.alpha = .ok alpha)
    (st : Newton.State ℝ (3 * n) (Memory ℝ n)) :
    model.Contracted
      ((1 - alpha) ^ (stateAfter (Newton.solve model.newton model.linear model.system none) st).progress.iterations)
      st.x (stateAfter (Newton.solve model.newton model.linear model.system none) st).x := by
  refine Newton.solve_of_steps (P := fun y k => model.Contracted ((1 - alpha) ^ k) st.x y) hlinear ?_ st ?_
  · intro y k r s s' J t t' step alpha' hy hr hJ hstep halpha'
    obtain rfl : alpha' = alpha := Except.ok.inj (halpha'.symm.trans halpha)
    rw [pow_succ']
    exact hy.step hr hJ hstep
  · rw [pow_zero]
    exact ⟨fun _ _ _ => rfl, fun i _ => (one_mul _).symm⟩

/-- **Damped steps contract what is linear, exactly.**  For an affine system and exact linear solves each step leaves
the fraction `1 - alpha` of the residual, so that a solve converges after the least number of steps that brings this
geometric sequence within the bound, if the limit allows it, and otherwise spends the limit.  For a model, whose
residual is not linear, each step of a solve leaves the same fraction of the constraint off the essential nodes, and no
step moves an essential entry, also where the solve fails in the end. -/
theorem damped_contraction :
    (∀ {n : ℕ} {σ : Type} {settings : Newton.Settings ℝ} {linear : Newton.LinearSolver ℝ n} {sys : Newton.System ℝ n σ}
      {Q : σ → Prop} {A : Sparse ℝ n n} {c : Vec ℝ n}, sys.Computes Q (fun x => A.mulVec x + c) →
      (∀ x s J s', (sys.gradient x).run s = .ok J s' → J = A) → IsUnit A.toMatrix → Newton.Exact linear →
      ∀ {rtol atol alpha : ℝ} {limit : ℤ}, settings.Given rtol atol alpha limit → 0 < alpha → alpha ≤ 1 →
      ∀ (b : Option (Vec ℝ n)) (x : Vec ℝ n) (p : Newton.Progress ℝ) (s : σ), Q s →
        let r := Newton.less b (A.mulVec x + c)
        let bound := max (rtol * Vec.norm r) atol
        ∃ st, (Newton.solve settings linear sys b).run ⟨x, p, s⟩ = .ok () st ∧
          Newton.less b (A.mulVec st.x + c) = Vec.scale ((1 - alpha) ^ st.progress.iterations) r ∧
          st.progress.history.reverse =
            (List.range (st.progress.iterations + 1)).map (fun i => (1 - alpha) ^ i * Vec.norm r) ∧
          (∀ k : ℕ, IsLeast {i : ℕ | (1 - alpha) ^ i * Vec.norm r ≤ bound} k → (k : ℤ) ≤ max limit 0 →
            st.progress.converged = true ∧ st.progress.iterations = k) ∧
          ((∀ k : ℕ, (k : ℤ) ≤ max limit 0 → bound < (1 - alpha) ^ k * Vec.norm r) →
            st.progress.converged = false ∧ (st.progress.iterations : ℤ) = max limit 0)) ∧
    ∀ {n : ℕ} {model : Model ℝ n} {alpha : ℝ}, Newton.Sound model.linear → model.newton.alpha = .ok alpha →
      ∀ st : Newton.State ℝ (3 * n) (Memory ℝ n),
        let st' := stateAfter (Newton.solve model.newton model.linear model.system none) st
        (∀ b, ∀ i ∈ model.ess, st'.x.get (State.place b i) = st.x.get (State.place b i)) ∧
        ∀ i ∉ model.ess,
          (model.constraint st'.x).get i = (1 - alpha) ^ st'.progress.iterations * (model.constraint st.x).get i := by
  constructor
  · intro n σ settings linear sys Q A c hsys hgradient hA hlinear rtol atol alpha limit hsettings _ halpha b x p s hs
      r bound
    obtain ⟨k, st, hrun, hk, hresidual, hhistory, houtside, hend⟩ :=
      Newton.solve_affine hgradient hA hlinear hsys hsettings halpha b x p s hs rfl rfl
    subst hk
    refine ⟨st, hrun, hresidual, hhistory, fun k hleast hk => ?_, fun hnever => ?_⟩
    · rcases hend with ⟨hconverged, -, hle⟩ | ⟨-, hlast, hlt⟩
      · refine ⟨hconverged, le_antisymm (not_lt.1 fun hlt => ?_) (hleast.2 hle)⟩
        exact (houtside k hlt).not_ge hleast.1
      · -- the least number is within the limit, but no residual up to the limit was within the bound
        have hspent : k ≤ st.progress.iterations := by omega
        rcases hspent.lt_or_eq with hbefore | rfl
        · exact absurd hleast.1 (houtside k hbefore).not_ge
        · exact absurd hleast.1 hlt.not_ge
    · rcases hend with ⟨-, hk, hle⟩ | ⟨hconverged, hlast, -⟩
      · exact absurd hle (hnever _ hk).not_ge
      · exact ⟨hconverged, hlast⟩
  · intro n model alpha hlinear halpha st st'
    have hcontracted := contracted_solve hlinear halpha st
    exact ⟨hcontracted.essential, hcontracted.constraint⟩

noncomputable def number : Newton.System ℝ 1 Unit where
  residual x := pure ((Sparse.ofDiagonal (Vec.fill 1 1)).mulVec x + Vec.zeros 1)
  gradient _ := pure (Sparse.ofDiagonal (Vec.fill 1 1))
  precondition := none

theorem number_computes :
    number.Computes (fun _ => True) fun x => (Sparse.ofDiagonal (Vec.fill 1 1)).mulVec x + Vec.zeros 1 where
  residual := fun _ _ _ => ⟨_, rfl, trivial⟩
  gradient := fun _ _ _ => ⟨_, _, rfl, trivial⟩
  precondition := nofun

theorem toMatrix_number : (Sparse.ofDiagonal (Vec.fill 1 1) : Sparse ℝ 1 1).toMatrix = 1 := by
  ext i j
  obtain rfl : i = 0 := Subsingleton.elim _ _
  obtain rfl : j = 0 := Subsingleton.elim _ _
  simp [Sparse.toMatrix_apply, Sparse.ofDiagonal, Vec.fill]

theorem norm_number :
    Vec.norm (Newton.less none
      ((Sparse.ofDiagonal (Vec.fill 1 1)).mulVec (Vec.fill 1 1) + Vec.zeros 1) : Vec ℝ 1) = 1 := by
  unfold Vec.norm Newton.less
  simp [Vec.dot_eq, toMatrix_number, dotProduct]

/-- The model of the unit square with half steps, until a quarter of the residual is left. -/
noncomputable def halved : Model ℝ Mesh.unitSquare.nodes :=
  { square with newton := { square.newton with rtol := .ok 0.25, atol := .ok 0, alpha := .ok 0.5 } }

theorem damped_contraction_halved :
    (∃ st, (Newton.solve halved.newton Newton.direct number none).run ⟨Vec.fill 1 1, .none, ()⟩ = .ok () st ∧
      st.progress.converged = true ∧ st.progress.iterations = 2) ∧
    let st' := stateAfter (Newton.solve halved.newton halved.linear halved.system none)
      ⟨State.toVec ⟨vortex, ramp, ramp⟩, .none, stepping⟩
    (∀ b, ∀ i ∈ halved.ess, st'.x.get (State.place b i) = (State.toVec ⟨vortex, ramp, ramp⟩).get (State.place b i)) ∧
      ∀ i ∉ halved.ess, (halved.constraint st'.x).get i =
        (1 - 0.5) ^ st'.progress.iterations * (halved.constraint (State.toVec ⟨vortex, ramp, ramp⟩)).get i := by
  obtain ⟨haffine, hmodel⟩ := damped_contraction
  refine ⟨?_, hmodel Newton.direct_sound rfl _⟩
  have hgradient : ∀ x s J s', (number.gradient x).run s = .ok J s' → J = Sparse.ofDiagonal (Vec.fill 1 1) := by
    intro x s J s' hJ
    exact (run_pure_eq_ok.1 hJ).1.symm
  have hA : IsUnit (Sparse.ofDiagonal (Vec.fill 1 1) : Sparse ℝ 1 1).toMatrix := toMatrix_number ▸ isUnit_one
  have hsettings : halved.newton.Given 0.25 0 0.5 20 := ⟨rfl, rfl, rfl, rfl, false, rfl⟩
  obtain ⟨st, hrun, -, -, hleast, -⟩ := haffine number_computes hgradient hA Newton.direct_isExact hsettings
    (by norm_num) (by norm_num) none (Vec.fill 1 1) .none () trivial
  rw [norm_number] at hleast
  have htwo : IsLeast {i : ℕ | (1 - 0.5 : ℝ) ^ i * 1 ≤ max (0.25 * 1) 0} 2 := by
    refine ⟨by norm_num, fun i hi => ?_⟩
    by_contra hlt
    have hfew : i = 0 ∨ i = 1 := by omega
    rcases hfew with rfl | rfl
    · norm_num at hi
    · norm_num at hi
  obtain ⟨hconverged, hiterations⟩ := hleast 2 htwo (by norm_num)
  exact ⟨st, hrun, hconverged, hiterations⟩

end Model

end Magnetofluid
