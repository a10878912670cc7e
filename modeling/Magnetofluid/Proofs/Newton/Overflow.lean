import Mathlib
import Magnetofluid.Proofs.Float.Special
import Magnetofluid.Proofs.Newton.Solver

/-!
# Newton's method where norms overflow

Over floats the norm of a residual may be infinite, or no number at all.  The bound on the norms is a multiple of the
first one, so that it may be infinite too.

* `Newton.solve_within`: over any numbers, the comparison with which a solve has said that it has converged.
* `Newton.converged_norm`: over floats, the last norm is then finite unless already the first one was infinite; and if
  that was infinite, a solve with a positive relative tolerance says that it has converged.
-/

namespace Magnetofluid.Newton

variable {K : Type} [Scalar K] {n : ℕ} {σ : Type} {settings : Settings K} {linear : LinearSolver K n}
  {sys : System K n σ} {b : Option (Vec K n)}

/-! ### Any numbers -/

/-- The progress after a residual was evaluated that is within the bound. -/
def Progress.ended (p : Progress K) (norm : K) : Progress K :=
  { converged := true, iterations := p.iterations, norm := some norm, history := norm :: p.history,
    events := .converged p.iterations norm :: .residual p.iterations norm :: p.events }

theorem bound_eq {rtol atol : K} (hrtol : settings.rtol = .ok rtol) (hatol : settings.atol = .ok atol) (first : K) :
    settings.bound first = .ok (Scalar.max (rtol * first) atol) := by
  unfold Settings.bound
  rw [hrtol, hatol]
  rfl

/-- An iteration has not said that it has converged. -/
def State.Open (st : State K n σ) : Prop := st.progress.converged = false

omit [Scalar K] in
theorem keepsOpen_onSystem {α : Type} (act : EStateM (Failure K) σ α) :
    Keeps State.Open (onSystem act : Action K n σ α) := by
  intro st hst
  unfold stateAfter
  cases hrun : (onSystem act : Action K n σ α).run st with
  | ok a st' =>
    obtain ⟨inner, -, rfl⟩ := onSystem_eq_ok.1 hrun
    exact hst
  | error e st' =>
    obtain ⟨inner, -, rfl⟩ := onSystem_eq_error.1 hrun
    exact hst

theorem keepsOpen_advance (r : Vec K n) : Keeps State.Open (advance settings linear sys r) :=
  keeps_advance_of (fun _ => keepsOpen_onSystem _) (fun _ _ _ => keepsOpen_onSystem _)
    (fun _ => .modify fun _ h => h) (fun _ _ => .modify fun _ h => h) r

/-- A turn after which an iteration says that it has converged ends it, or hands the first norm on to another turn. -/
theorem iterate_ok {steps : ℕ} {first? : Option K} {u : Unit} {st st' : State K n σ}
    (h : (iterate settings linear sys b steps first?).run st = .ok u st') (hst : st.Open)
    (hst' : st'.progress.converged = true) :
    ∃ (r : Vec K n) (bound : K), settings.bound (first?.getD (Vec.norm r)) = .ok bound ∧
      (Scalar.le (Vec.norm r) bound = true ∧ st'.x = st.x ∧ st'.progress = st.progress.ended (Vec.norm r) ∨
        Scalar.le (Vec.norm r) bound = false ∧ ∃ fewer < steps, ∃ between : State K n σ, between.Open ∧
          (iterate settings linear sys b fewer (some (first?.getD (Vec.norm r)))).run between = .ok u st') := by
  unfold iterate at h
  obtain ⟨⟨r, norm⟩, between, hmeasure, h⟩ := run_bind_eq_ok.1 h
  obtain ⟨-, -, inner, -, -, hnorm, rfl⟩ := measure_run_eq_ok.1 hmeasure
  obtain rfl : norm = Vec.norm r := hnorm
  obtain ⟨bound, _, hlook, h⟩ := run_bind_eq_ok.1 h
  obtain ⟨hbound, rfl⟩ := run_ofExcept_eq_ok.1 hlook
  refine ⟨r, bound, hbound, ?_⟩
  by_cases hle : Scalar.le (Vec.norm r) bound = true
  · rw [if_pos hle] at h
    simp only [report, run_get_bind, run_modify_bind, run_modify_eq_ok] at h
    subst h
    exact .inl ⟨hle, rfl, rfl⟩
  · rw [if_neg hle] at h
    refine .inr ⟨Bool.eq_false_iff.2 hle, ?_⟩
    cases steps with
    | zero =>
      simp only [report, run_get_bind, run_bind_eq_ok, run_discard_eq_ok, run_ofExcept_eq_ok, run_modify_eq_ok] at h
      obtain ⟨_, _, ⟨_, -, rfl⟩, rfl⟩ := h
      exact absurd (hst.symm.trans hst') Bool.false_ne_true
    | succ steps =>
      obtain ⟨v, after, hadvance, h⟩ := run_bind_eq_ok.1 h
      refine ⟨steps, Nat.lt_succ_self steps, after, (keepsOpen_advance r).of_run_ok ?_ hadvance, h⟩
      exact hst

/-- Later norms are compared with the bound that the first one sets. -/
theorem iterate_within {steps : ℕ} {first : K} {u : Unit} {st st' : State K n σ}
    (h : (iterate settings linear sys b steps (some first)).run st = .ok u st') (hst : st.Open)
    (hst' : st'.progress.converged = true) :
    ∃ (r : Vec K n) (bound : K), st'.progress.norm = some (Vec.norm r) ∧ settings.bound first = .ok bound ∧
      Scalar.le (Vec.norm r) bound = true := by
  induction steps using Nat.strong_induction_on generalizing st with
  | _ steps ih =>
    obtain ⟨r, bound, hbound, ⟨hle, -, hprogress⟩ | ⟨-, fewer, hfewer, between, hopen, hrest⟩⟩ := iterate_ok h hst hst'
    · refine ⟨r, bound, ?_, hbound, hle⟩
      rw [hprogress]
      rfl
    · exact ih fewer hfewer hrest hopen

/-- What a solve has compared that says it has converged: the first norm with the bound that it sets itself, or a later
one with the bound that the first one was not within. -/
theorem solve_within {u : Unit} {st st' : State K n σ} (h : (solve settings linear sys b).run st = .ok u st')
    (hst' : st'.progress.converged = true) :
    ∃ (r : Vec K n) (bound : K), st'.progress.norm = some (Vec.norm r) ∧ Scalar.le (Vec.norm r) bound = true ∧
      (settings.bound (Vec.norm r) = .ok bound ∧ st'.x = st.x ∧ st'.progress.iterations = 0 ∧
          st'.progress.history = [Vec.norm r] ∨
        ∃ first, settings.bound first = .ok bound ∧ Scalar.le first bound = false) := by
  unfold solve reset at h
  rw [run_modify_bind] at h
  obtain ⟨r, bound, hbound, ⟨hle, hx, hprogress⟩ | ⟨hnot, fewer, -, between, hopen, hrest⟩⟩ := iterate_ok h rfl hst'
  · refine ⟨r, bound, ?_, hle, .inl ⟨hbound, hx, ?_, ?_⟩⟩
    all_goals
      rw [hprogress]
      rfl
  · obtain ⟨r', bound', hnorm, hbound', hle⟩ := iterate_within hrest hopen hst'
    obtain rfl : bound = bound' := Except.ok.inj (hbound.symm.trans hbound')
    exact ⟨r', bound, hnorm, hle, .inr ⟨_, hbound, hnot⟩⟩

/-! ### Floats -/

section Floats

variable {settings : Settings Float} {linear : LinearSolver Float n} {sys : System Float n σ} {b : Option (Vec Float n)}
  {rtol atol : Float}

theorem isPosInf_max {a c : Float} (h : a.IsPosInf) : (Scalar.max a c).IsPosInf := by
  unfold Scalar.max
  split
  next hlt => exact h.of_le (Float.le_of_lt (of_decide_eq_true hlt))
  · exact h

theorem isPosInf_of_max {a c : Float} (hc : c.isFinite) (h : (Scalar.max a c).IsPosInf) : a.IsPosInf := by
  unfold Scalar.max at h
  split at h
  · exact absurd (h.isFinite_eq.symm.trans hc) Bool.false_ne_true
  · exact h

theorem norm_isPosInf {r : Vec Float n} (h : (Vec.norm r).isInf) : (Vec.norm r).IsPosInf := Float.isPosInf_sqrt h

section Solve

variable (hrtol : settings.rtol = .ok rtol) (hatol : settings.atol = .ok atol)
include hrtol hatol

/-- A bound that an infinite norm is within is the relative one. -/
theorem isPosInf_of_within (hfinite : atol.isFinite) {norm first bound : Float} (hnorm : norm.IsPosInf)
    (hbound : settings.bound first = .ok bound) (hle : Scalar.le norm bound = true) :
    bound.IsPosInf ∧ (rtol * first).IsPosInf := by
  rw [bound_eq hrtol hatol, Except.ok.injEq] at hbound
  have hinf : bound.IsPosInf := hnorm.of_le (of_decide_eq_true hle)
  exact ⟨hinf, isPosInf_of_max hfinite (hbound ▸ hinf)⟩

theorem isFinite_of_converged (hfinite : atol.isFinite) {u : Unit} {st st' : State Float n σ}
    (h : (solve settings linear sys b).run st = .ok u st') (hst' : st'.progress.converged = true) :
    ∃ norm, st'.progress.norm = some norm ∧ (norm.isFinite ∨ norm.isInf ∧ 0.0 < rtol ∧ st'.x = st.x ∧
      st'.progress.iterations = 0 ∧ st'.progress.history = [norm]) := by
  obtain ⟨r, bound, hnorm, hle, hcases⟩ := solve_within h hst'
  refine ⟨_, hnorm, ?_⟩
  by_cases hr : (Vec.norm r).isFinite
  · exact .inl hr
  have hnan : (Vec.norm r).isNaN = false := (Float.isNaN_eq_false_of_le (of_decide_eq_true hle)).1
  have hinf : (Vec.norm r).isInf := Float.isInf_of_not_isFinite (Bool.eq_false_iff.2 hr) hnan
  have hposInf := norm_isPosInf hinf
  rcases hcases with ⟨hbound, hx, hiterations, hhistory⟩ | ⟨first, hbound, hnot⟩
  · obtain ⟨-, hmul⟩ := isPosInf_of_within hrtol hatol hfinite hposInf hbound hle
    exact .inr ⟨hinf, hposInf.mul_iff.1 hmul, hx, hiterations, hhistory⟩
  · -- nothing but a NaN is outside an infinite bound, and the multiple of a NaN sets no such bound
    obtain ⟨hboundInf, hmul⟩ := isPosInf_of_within hrtol hatol hfinite hposInf hbound hle
    have hfirst : first.isNaN := by
      by_contra hfirst
      exact of_decide_eq_false hnot (hboundInf.le (Bool.eq_false_iff.2 hfirst))
    have hproduct : (rtol * first).isNaN := Float.isNaN_mul (.inr hfirst)
    exact absurd hproduct (Bool.eq_false_iff.1 hmul.isNaN_eq)

/-- An infinite first norm is within the bound that it sets. -/
theorem solve_of_norm_isInf (hpos : 0.0 < rtol) {verbose : Bool} (hverbose : settings.verbose = .ok verbose)
    {x r d : Vec Float n} {inner inner' : σ} (hr : (sys.residual x).run inner = .ok r inner')
    (hd : d = b.elim r (r - ·)) (hinf : (Vec.norm d).isInf) (p : Progress Float) :
    ∃ p', (solve settings linear sys b).run ⟨x, p, inner⟩ = .ok () ⟨x, p', inner'⟩ ∧ p'.converged = true ∧
      p'.norm = some (Vec.norm d) := by
  have hposInf := norm_isPosInf hinf
  have hle : Scalar.le (Vec.norm d) (Scalar.max (rtol * Vec.norm d) atol) = true :=
    decide_eq_true ((isPosInf_max (hposInf.mul_iff.2 hpos)).le hposInf.isNaN_eq)
  refine ⟨Progress.ended { Progress.none with norm := p.norm } (Vec.norm d), ?_, rfl, rfl⟩
  unfold solve reset iterate
  rw [run_modify_bind]
  refine run_bind_eq_ok.2 ⟨(d, Vec.norm d), _,
    measure_run_eq_ok.2 ⟨⟨verbose, hverbose⟩, r, inner', hr, hd, rfl, rfl⟩, ?_⟩
  refine run_bind_eq_ok.2 ⟨_, _, run_ofExcept_eq_ok.2 ⟨bound_eq hrtol hatol _, rfl⟩, ?_⟩
  dsimp only [Option.getD_none]
  rw [if_pos hle]
  rfl

/-- **A solve says that it has converged at a finite norm, or at a first norm that is infinite.**  The relative
tolerance then is positive, so that the norm is within the bound that it sets itself, and no step is taken.  This does
happen at each start whose norm is infinite. -/
theorem converged_norm (hfinite : atol.isFinite) :
    (∀ u (st st' : State Float n σ), (solve settings linear sys b).run st = .ok u st' → st'.progress.converged = true →
      ∃ norm, st'.progress.norm = some norm ∧ (norm.isFinite ∨ norm.isInf ∧ 0.0 < rtol ∧ st'.x = st.x ∧
        st'.progress.iterations = 0 ∧ st'.progress.history = [norm])) ∧
      ∀ verbose, settings.verbose = .ok verbose → 0.0 < rtol → ∀ x inner r inner',
        (sys.residual x).run inner = .ok r inner' → (Vec.norm (b.elim r (r - ·))).isInf → ∀ p, ∃ p',
          (solve settings linear sys b).run ⟨x, p, inner⟩ = .ok () ⟨x, p', inner'⟩ ∧ p'.converged = true ∧
            p'.norm = some (Vec.norm (b.elim r (r - ·))) :=
  ⟨fun _ _ _ h hst' => isFinite_of_converged hrtol hatol hfinite h hst', fun _ hverbose hpos _ _ _ _ hr hinf p =>
    solve_of_norm_isInf hrtol hatol hpos hverbose hr rfl hinf p⟩

end Solve

end Floats

def identity : System Float 1 Unit where
  residual x := pure x
  gradient _ := pure (.ofDiagonal #v[1.0])
  precondition := none

/-- The linear solver that takes a residual for the step. -/
def byResidual : LinearSolver Float 1 := fun _ _ r => .ok ⟨r, 0⟩

def usual : Settings Float where
  rtol := .ok 1e-8
  atol := .ok 1e-12
  maxIter := .ok 20
  alpha := .ok 1.0
  linearRtol := .ok 1e-8
  linearAtol := .ok 0.0
  linearMaxIter := .ok (some 500)
  restart _ := .ok 50
  verbose := .ok false

/-- Whether a solve succeeds after so many steps and says that it has converged. -/
def convergedAfter (steps : ℕ) (act : Action Float 1 Unit Unit) (st : State Float 1 Unit) : Bool :=
  match act.run st with
  | .ok _ st' => st'.progress.converged && st'.progress.iterations == steps
  | .error _ _ => false

theorem exists_of_convergedAfter {steps : ℕ} {act : Action Float 1 Unit Unit} {st : State Float 1 Unit}
    (h : convergedAfter steps act st = true) :
    ∃ st', act.run st = .ok () st' ∧ st'.progress.converged = true ∧ st'.progress.iterations = steps := by
  unfold convergedAfter at h
  cases hrun : act.run st with
  | ok u st' =>
    rw [hrun, Bool.and_eq_true, beq_iff_eq] at h
    exact ⟨st', rfl, h⟩
  | error e st' =>
    rw [hrun] at h
    exact absurd h Bool.false_ne_true

/-- A start at three takes one step, and a start whose norm overflows takes none. -/
theorem converged_norm_identity :
    (∃ st' norm, (solve usual byResidual identity none).run ⟨#v[3.0], .none, ()⟩ = .ok () st' ∧
      st'.progress.converged = true ∧ st'.progress.iterations = 1 ∧ st'.progress.norm = some norm ∧ norm.isFinite) ∧
      ∃ p', (solve usual byResidual identity none).run ⟨#v[1e200], .none, ()⟩ = .ok () ⟨#v[1e200], p', ()⟩ ∧
        p'.converged = true ∧ p'.norm = some (Vec.norm #v[1e200]) := by
  obtain ⟨hfinite, hinfinite⟩ := @converged_norm 1 Unit usual byResidual identity none 1e-8 1e-12 rfl rfl
    (by decide +kernel)
  constructor
  · have hafter : convergedAfter 1 (solve usual byResidual identity none) ⟨#v[3.0], .none, ()⟩ = true := by
      decide +kernel
    obtain ⟨st', hrun, hconverged, hone⟩ := exists_of_convergedAfter hafter
    obtain ⟨norm, hnorm, hcases⟩ := hfinite () _ _ hrun hconverged
    have hnot : ¬ st'.progress.iterations = 0 := by
      rw [hone]
      exact one_ne_zero
    exact ⟨st', norm, hrun, hconverged, hone, hnorm, hcases.resolve_right fun h => hnot h.2.2.2.1⟩
  · exact hinfinite false rfl (by decide +kernel) _ () _ () rfl (by decide +kernel) .none

/-- With a right-hand side whose norm overflows a solve has converged before it takes a step. -/
theorem not_forall_norm_isFinite : ¬ ∀ (n : ℕ) (σ : Type) (settings : Settings Float) (linear : LinearSolver Float n)
    (sys : System Float n σ) (b : Option (Vec Float n)) (rtol atol : Float) (st st' : State Float n σ),
      settings.rtol = .ok rtol → settings.atol = .ok atol → rtol.isFinite → 0.0 ≤ rtol → atol.isFinite → 0.0 ≤ atol →
        (solve settings linear sys b).run st = .ok () st' → st'.progress.converged = true →
          ∃ norm, st'.progress.norm = some norm ∧ norm.isFinite := by
  intro h
  have hinf : (Vec.norm (#v[0.0] - #v[1e200] : Vec Float 1)).isInf := by decide +kernel
  obtain ⟨p', hrun, hconverged, hnorm⟩ := @solve_of_norm_isInf 1 Unit usual byResidual identity (some #v[1e200]) 1e-8
    1e-12 rfl rfl (by decide +kernel) false rfl #v[0.0] _ _ () _ rfl rfl hinf .none
  obtain ⟨norm, hlast, hfinite⟩ := h 1 Unit usual byResidual identity (some #v[1e200]) 1e-8 1e-12 _ _ rfl rfl
    (by decide +kernel) (by decide +kernel) (by decide +kernel) (by decide +kernel) hrun hconverged
  obtain rfl := Option.some.inj (hlast.symm.trans hnorm)
  exact absurd hfinite (Bool.eq_false_iff.1 (norm_isPosInf hinf).isFinite_eq)

end Magnetofluid.Newton
