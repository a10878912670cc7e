import Mathlib
import Magnetofluid.Newton.Solver
import Magnetofluid.Proofs.Linear.Vector
import Magnetofluid.Proofs.Outcome

/-!
# Newton's method over the reals

* `Newton.residualLess_eq_ok`, `Newton.measure_run_eq_ok`: what an evaluation that succeeds has done, in any number
  system.
* `Newton.solve_of_no_step`: an iteration that starts within its bound, or that is allowed no step, ends at once.
* `Newton.Ends`, `Newton.solve_ends`: how an iteration that does not fail comes to its end.
* `Newton.Stepped`, `Newton.solve_stepped`: the steps that an iteration has counted when it ends.
* `Newton.solve_keeps`: what the evaluations and each damped step keep holds when an iteration ends, be it at the
  tolerance or at the last step that is allowed.
* `Newton.keeps_solve`: what the evaluations alone keep, also where they fail.
* `Newton.solve_first_last`: the residuals at the start and at the end of a solve.
-/

namespace Magnetofluid.Newton

section OnSystem

variable {K : Type} {n : ℕ} {σ α : Type} {act : EStateM (Failure K) σ α} {st st' : State K n σ}

theorem onSystem_eq_ok {a : α} : (onSystem act : Action K n σ α).run st = .ok a st' ↔
    ∃ inner, act.run st.inner = .ok a inner ∧ st' = { st with inner } := by
  show onSystem act st = _ ↔ _
  unfold onSystem
  cases act.run st.inner with
  | ok b inner => simp [eq_comm]
  | error e inner => simp

theorem onSystem_eq_error {e : Failure K} : (onSystem act : Action K n σ α).run st = .error e st' ↔
    ∃ inner, act.run st.inner = .error e inner ∧ st' = { st with inner } := by
  show onSystem act st = _ ↔ _
  unfold onSystem
  cases act.run st.inner with
  | ok b inner => simp
  | error e inner => simp [eq_comm]

end OnSystem

section Evaluation

variable {K : Type} [Scalar K] {n : ℕ} {σ : Type} {settings : Settings K} {sys : System K n σ} {b : Option (Vec K n)}
  {st st' : State K n σ}

theorem residualLess_eq_ok {r : Vec K n} : (residualLess sys b).run st = .ok r st' ↔
    ∃ r₀ inner, (sys.residual st.x).run st.inner = .ok r₀ inner ∧ r = b.elim r₀ (r₀ - ·) ∧ st' = { st with inner } := by
  have hless : residualLess sys b = (do
      let r₀ ← onSystem (sys.residual (← get).x)
      return b.elim r₀ (r₀ - ·) : Action K n σ (Vec K n)) := by
    refine bind_congr fun st => bind_congr fun r₀ => ?_
    cases b with
    | none => rfl
    | some b => rfl
  simp only [hless, run_get_bind, run_bind_eq_ok, run_pure_eq_ok, onSystem_eq_ok]
  constructor
  · rintro ⟨r₀, _, ⟨inner, hr, rfl⟩, rfl, rfl⟩
    exact ⟨r₀, inner, hr, rfl, rfl⟩
  · rintro ⟨r₀, inner, hr, rfl, rfl⟩
    exact ⟨r₀, _, ⟨inner, hr, rfl⟩, rfl, rfl⟩

theorem measure_run_eq_ok {a : Vec K n × K} : (measure settings sys b).run st = .ok a st' ↔
    (∃ verbose, settings.verbose = .ok verbose) ∧
      ∃ r inner, (sys.residual st.x).run st.inner = .ok r inner ∧ a.1 = b.elim r (r - ·) ∧ a.2 = Vec.norm a.1 ∧
        st' = ⟨st.x, { st.progress with
          norm := some a.2
          history := a.2 :: st.progress.history
          events := .residual st.progress.iterations a.2 :: st.progress.events }, inner⟩ := by
  obtain ⟨_, norm⟩ := a
  simp only [measure, report, run_get_bind, run_modify_bind, run_bind_eq_ok, run_pure_eq_ok, residualLess_eq_ok,
    run_discard_eq_ok, run_ofExcept_eq_ok, Prod.mk.injEq]
  constructor
  · rintro ⟨_, _, ⟨r, inner, hr, rfl, rfl⟩, _, _, ⟨verbose, hverbose, rfl⟩, ⟨rfl, rfl⟩, rfl⟩
    exact ⟨⟨verbose, hverbose⟩, r, inner, hr, rfl, rfl, rfl⟩
  · rintro ⟨⟨verbose, hverbose⟩, r, inner, hr, rfl, rfl, rfl⟩
    exact ⟨_, _, ⟨r, inner, hr, rfl, rfl⟩, ⟨⟩, _, ⟨verbose, hverbose, rfl⟩, ⟨rfl, rfl⟩, rfl⟩

end Evaluation

variable {n : ℕ} {σ : Type} {settings : Settings ℝ} {linear : LinearSolver ℝ n} {sys : System ℝ n σ}

/-- The progress after a residual of some norm was evaluated. -/
def Progress.measured (p : Progress ℝ) (norm : ℝ) : Progress ℝ :=
  { p with norm := some norm, history := norm :: p.history, events := .residual p.iterations norm :: p.events }

theorem measure_eq_ok {a : Vec ℝ n × ℝ} {st st' : State ℝ n σ} :
    (measure settings sys none).run st = .ok a st' ↔ (∃ verbose, settings.verbose = .ok verbose) ∧
      ∃ inner, (sys.residual st.x).run st.inner = .ok a.1 inner ∧ a.2 = Vec.norm a.1 ∧
        st' = ⟨st.x, st.progress.measured a.2, inner⟩ := by
  rw [measure_run_eq_ok]
  refine and_congr_right fun _ => ⟨?_, ?_⟩
  · rintro ⟨r, inner, hr, ha, hnorm, hst'⟩
    obtain rfl : a.1 = r := ha
    exact ⟨inner, hr, hnorm, hst'⟩
  · rintro ⟨inner, hr, hnorm, hst'⟩
    exact ⟨a.1, inner, hr, rfl, hnorm, hst'⟩

theorem bound_eq_ok {first bound : ℝ} : settings.bound first = .ok bound ↔
    ∃ rtol atol, settings.rtol = .ok rtol ∧ settings.atol = .ok atol ∧ bound = max (rtol * first) atol := by
  unfold Settings.bound
  simp only [except_bind_eq_ok, Scalar.max_real]
  constructor
  · rintro ⟨rtol, hrtol, atol, hatol, hbound⟩
    exact ⟨rtol, atol, hrtol, hatol, (Except.ok.inj hbound).symm⟩
  · rintro ⟨rtol, atol, hrtol, hatol, rfl⟩
    exact ⟨rtol, hrtol, atol, hatol, rfl⟩

/-- The number of steps is the limit, or zero if that is less. -/
theorem steps_eq {limit : ℤ} (h : settings.maxIter = .ok limit) : (settings.steps : ℤ) = max limit 0 := by
  unfold Settings.steps
  rw [h]
  exact Int.toNat_eq_max limit

/-- An iteration that starts within its bound, or that is allowed no step, ends where it starts. -/
theorem solve_of_no_step (linear : LinearSolver ℝ n) {x r : Vec ℝ n} (p : Progress ℝ) {inner inner' : σ}
    (hr : (sys.residual x).run inner = .ok r inner') {bound : ℝ} (hbound : settings.bound (Vec.norm r) = .ok bound)
    {verbose : Bool} (hverbose : settings.verbose = .ok verbose)
    (hend : Vec.norm r ≤ bound ∨ ∃ limit ≤ 0, settings.maxIter = .ok limit) :
    ∃ p', (solve settings linear sys none).run ⟨x, p, inner⟩ = .ok () ⟨x, p', inner'⟩ ∧
      (p'.converged = true ↔ Vec.norm r ≤ bound) ∧ p'.iterations = 0 ∧ p'.norm = some (Vec.norm r) := by
  let q : Progress ℝ := Progress.measured { Progress.none with norm := p.norm } (Vec.norm r)
  have hmeasure : (measure settings sys none).run ⟨x, { Progress.none with norm := p.norm }, inner⟩ =
      .ok (r, Vec.norm r) ⟨x, q, inner'⟩ :=
    measure_eq_ok.2 ⟨⟨verbose, hverbose⟩, inner', hr, rfl, rfl⟩
  have hlook : (MonadExcept.ofExcept (settings.bound (Vec.norm r)) : Action ℝ n σ ℝ).run ⟨x, q, inner'⟩ =
      .ok bound ⟨x, q, inner'⟩ := run_ofExcept_eq_ok.2 ⟨hbound, rfl⟩
  by_cases hle : Vec.norm r ≤ bound
  · have hscalar : Scalar.le (Vec.norm r) bound = true := decide_eq_true hle
    refine ⟨{ q with converged := true, events := .converged 0 (Vec.norm r) :: q.events }, ?_, iff_of_true rfl hle, rfl, rfl⟩
    unfold solve reset iterate
    rw [run_modify_bind]
    refine run_bind_eq_ok.2 ⟨_, _, hmeasure, run_bind_eq_ok.2 ⟨_, _, hlook, ?_⟩⟩
    rw [if_pos hscalar]
    rfl
  · have hscalar : ¬ Scalar.le (Vec.norm r) bound = true := fun h => hle (of_decide_eq_true h)
    obtain ⟨limit, hlimit, hmaxIter⟩ := hend.resolve_left hle
    have hsteps : settings.steps = 0 := by
      have h := steps_eq hmaxIter
      rw [max_eq_right hlimit] at h
      exact Int.ofNat_eq_zero.1 h
    refine ⟨{ q with events := .gaveUp 0 (Vec.norm r) :: q.events }, ?_, iff_of_false Bool.false_ne_true hle, rfl, rfl⟩
    unfold solve reset
    rw [run_modify_bind, hsteps]
    unfold iterate
    refine run_bind_eq_ok.2 ⟨_, _, hmeasure, run_bind_eq_ok.2 ⟨_, _, hlook, ?_⟩⟩
    rw [if_neg hscalar, hmaxIter]
    rfl

/-- An iteration that starts at a zero of the residual ends there, without a step. -/
theorem solve_of_norm_eq_zero (linear : LinearSolver ℝ n) {x r : Vec ℝ n} (p : Progress ℝ) {inner inner' : σ}
    (hr : (sys.residual x).run inner = .ok r inner') (hnorm : Vec.norm r = 0) {rtol atol : ℝ} {verbose : Bool}
    (hrtol : settings.rtol = .ok rtol) (hatol : settings.atol = .ok atol) (hverbose : settings.verbose = .ok verbose) :
    ∃ p', (solve settings linear sys none).run ⟨x, p, inner⟩ = .ok () ⟨x, p', inner'⟩ ∧ p'.converged = true ∧
      p'.iterations = 0 := by
  have hbound : settings.bound (Vec.norm r) = .ok (max (rtol * Vec.norm r) atol) :=
    bound_eq_ok.2 ⟨rtol, atol, hrtol, hatol, rfl⟩
  have hle : Vec.norm r ≤ max (rtol * Vec.norm r) atol := by
    rw [hnorm, mul_zero]
    exact le_max_left 0 atol
  obtain ⟨p', hrun, hconverged, hiterations, -⟩ := solve_of_no_step linear p hr hbound hverbose (.inl hle)
  exact ⟨p', hrun, hconverged.2 hle, hiterations⟩

/-! ### Steps -/

/-- The answers of a linear solver that can be used are solutions. -/
def Sound (linear : LinearSolver ℝ n) : Prop :=
  ∀ J P r answer, linear J P r = .ok answer → 0 ≤ answer.info → J.mulVec answer.step = r

/-- What an advance takes over from the answer of the linear solver. -/
structure Moved (settings : Settings ℝ) (answer : LinearStep ℝ n) (st st' : State ℝ n σ) : Prop where
  info : 0 ≤ answer.info
  x : ∃ alpha, settings.alpha = .ok alpha ∧ st'.x = Vec.subScaled st.x alpha answer.step
  iterations : st'.progress.iterations = st.progress.iterations + 1
  converged : st'.progress.converged = st.progress.converged

/-- The part of an advance that comes after linearisation and preconditioner. -/
noncomputable def dampedStep (settings : Settings ℝ) (linear : LinearSolver ℝ n) (J : Sparse ℝ n n)
    (P : Krylov.Preconditioner ℝ n) (r : Vec ℝ n) : Action ℝ n σ Unit := do
  let answer ← MonadExcept.ofExcept (linear J P r)
  if answer.info < 0 then throw (.notConverged "Newton GMRES" 0 answer.info)
  if 0 < answer.info then report (.stalled (← get).progress.iterations)
  let alpha ← MonadExcept.ofExcept settings.alpha
  modify fun s => { s with
    x := Vec.subScaled s.x alpha answer.step
    progress.iterations := s.progress.iterations + 1 }

theorem advance_eq (r : Vec ℝ n) : advance settings linear sys r = (do
    let J ← onSystem (sys.gradient (← get).x)
    let P ← match sys.precondition with
      | none => pure .identity
      | some build => onSystem (build J)
    dampedStep settings linear J P r) := by
  refine bind_congr fun st => bind_congr fun J => ?_
  cases sys.precondition with
  | none => rfl
  | some build => rfl

theorem dampedStep_ok {J : Sparse ℝ n n} {P : Krylov.Preconditioner ℝ n} {r : Vec ℝ n} {u : Unit} {st st' : State ℝ n σ}
    (h : (dampedStep settings linear J P r).run st = .ok u st') :
    ∃ answer, linear J P r = .ok answer ∧ Moved settings answer st st' ∧ st'.inner = st.inner := by
  unfold dampedStep at h
  obtain ⟨answer, _, hlook, h⟩ := run_bind_eq_ok.1 h
  obtain ⟨hanswer, rfl⟩ := run_ofExcept_eq_ok.1 hlook
  by_cases hneg : answer.info < 0
  · rw [if_pos hneg] at h
    exact absurd h nofun
  · rw [if_neg hneg] at h
    by_cases hpos : 0 < answer.info
    · rw [if_pos hpos] at h
      simp only [report, run_get_bind, run_modify_bind, run_bind_eq_ok, run_ofExcept_eq_ok, run_modify_eq_ok] at h
      obtain ⟨alpha, _, ⟨halpha, rfl⟩, rfl⟩ := h
      exact ⟨answer, hanswer, ⟨not_lt.1 hneg, ⟨alpha, halpha, rfl⟩, rfl, rfl⟩, rfl⟩
    · rw [if_neg hpos] at h
      simp only [run_bind_eq_ok, run_ofExcept_eq_ok, run_modify_eq_ok] at h
      obtain ⟨alpha, _, ⟨halpha, rfl⟩, rfl⟩ := h
      exact ⟨answer, hanswer, ⟨not_lt.1 hneg, ⟨alpha, halpha, rfl⟩, rfl, rfl⟩, rfl⟩

theorem advance_ok {r : Vec ℝ n} {u : Unit} {st st' : State ℝ n σ}
    (h : (advance settings linear sys r).run st = .ok u st') :
    ∃ J P inner answer, (sys.gradient st.x).run st.inner = .ok J inner ∧ linear J P r = .ok answer ∧
      Moved settings answer st st' ∧
      (st'.inner = inner ∨ ∃ build, sys.precondition = some build ∧ (build J).run inner = .ok P st'.inner) := by
  rw [advance_eq, run_get_bind] at h
  obtain ⟨J, _, hgradient, h⟩ := run_bind_eq_ok.1 h
  obtain ⟨inner, hJ, rfl⟩ := onSystem_eq_ok.1 hgradient
  cases hprecondition : sys.precondition with
  | none =>
    rw [hprecondition] at h
    obtain ⟨answer, hanswer, ⟨hinfo, hx, hiterations, hconverged⟩, hinner⟩ := dampedStep_ok h
    exact ⟨J, _, inner, answer, hJ, hanswer, ⟨hinfo, hx, hiterations, hconverged⟩, .inl hinner⟩
  | some build =>
    rw [hprecondition] at h
    obtain ⟨P, _, hbuild, h⟩ := run_bind_eq_ok.1 h
    obtain ⟨inner', hP, rfl⟩ := onSystem_eq_ok.1 hbuild
    obtain ⟨answer, hanswer, ⟨hinfo, hx, hiterations, hconverged⟩, hinner⟩ := dampedStep_ok h
    refine ⟨J, P, inner, answer, hJ, hanswer, ⟨hinfo, hx, hiterations, hconverged⟩, .inr ⟨build, rfl, ?_⟩⟩
    rw [hinner]
    exact hP

/-- How an iteration with a number of steps left comes to its end: within the bound, or outside when no step is left, or
after a step that leaves it to be continued. -/
inductive Ends (settings : Settings ℝ) (linear : LinearSolver ℝ n) (sys : System ℝ n σ) :
    ℕ → Option ℝ → State ℝ n σ → State ℝ n σ → Prop
  | converged {steps : ℕ} {first? : Option ℝ} {st : State ℝ n σ} {r : Vec ℝ n} {inner : σ} {bound : ℝ}
    {events : List (Event ℝ)} (residual : (sys.residual st.x).run st.inner = .ok r inner)
    (bounded : settings.bound (first?.getD (Vec.norm r)) = .ok bound) (within : Vec.norm r ≤ bound) :
    Ends settings linear sys steps first? st
      ⟨st.x, { st.progress.measured (Vec.norm r) with converged := true, events }, inner⟩
  | gaveUp {first? : Option ℝ} {st : State ℝ n σ} {r : Vec ℝ n} {inner : σ} {bound : ℝ} {events : List (Event ℝ)}
    (residual : (sys.residual st.x).run st.inner = .ok r inner)
    (bounded : settings.bound (first?.getD (Vec.norm r)) = .ok bound) (outside : bound < Vec.norm r)
    (limited : ∃ limit, settings.maxIter = .ok limit) :
    Ends settings linear sys 0 first? st ⟨st.x, { st.progress.measured (Vec.norm r) with events }, inner⟩
  | step {steps : ℕ} {first? : Option ℝ} {st between st' : State ℝ n σ} {r : Vec ℝ n} {inner : σ} {v : Unit}
    (residual : (sys.residual st.x).run st.inner = .ok r inner)
    (advanced : (advance settings linear sys r).run ⟨st.x, st.progress.measured (Vec.norm r), inner⟩ = .ok v between)
    (rest : Ends settings linear sys steps (some (first?.getD (Vec.norm r))) between st') :
    Ends settings linear sys (steps + 1) first? st st'

theorem iterate_ends {steps : ℕ} {first? : Option ℝ} {u : Unit} {st st' : State ℝ n σ}
    (h : (iterate settings linear sys none steps first?).run st = .ok u st') :
    Ends settings linear sys steps first? st st' := by
  unfold iterate at h
  obtain ⟨⟨r, norm⟩, _, hmeasure, h⟩ := run_bind_eq_ok.1 h
  obtain ⟨-, inner, hr, hnorm, rfl⟩ := measure_eq_ok.1 hmeasure
  obtain rfl : norm = Vec.norm r := hnorm
  obtain ⟨bound, _, hlook, h⟩ := run_bind_eq_ok.1 h
  obtain ⟨hbound, rfl⟩ := run_ofExcept_eq_ok.1 hlook
  by_cases hle : Scalar.le (Vec.norm r) bound = true
  · rw [if_pos hle] at h
    simp only [report, run_get_bind, run_modify_bind, run_modify_eq_ok] at h
    subst h
    exact .converged hr hbound (of_decide_eq_true hle)
  rw [if_neg hle] at h
  cases steps with
  | zero =>
    simp only [report, run_get_bind, run_bind_eq_ok, run_discard_eq_ok, run_ofExcept_eq_ok, run_modify_eq_ok] at h
    obtain ⟨_, _, ⟨limit, hlimit, rfl⟩, rfl⟩ := h
    exact .gaveUp hr hbound (not_le.1 fun h => hle (decide_eq_true h)) ⟨limit, hlimit⟩
  | succ steps =>
    obtain ⟨v, between, hadvance, h⟩ := run_bind_eq_ok.1 h
    exact .step hr hadvance (iterate_ends h)
termination_by steps

theorem solve_ends {u : Unit} {st st' : State ℝ n σ} (h : (solve settings linear sys none).run st = .ok u st') :
    Ends settings linear sys settings.steps none
      { st with progress := { Progress.none with norm := st.progress.norm } } st' := by
  unfold solve reset at h
  rw [run_modify_bind] at h
  exact iterate_ends h

/-- So many steps, each against the residual at its iterate, lead from one iterate to another one. -/
inductive Stepped (settings : Settings ℝ) (linear : LinearSolver ℝ n) (sys : System ℝ n σ) :
    ℕ → State ℝ n σ → State ℝ n σ → Prop
  | ended {st st' : State ℝ n σ} (x : st'.x = st.x) (iterations : st'.progress.iterations = st.progress.iterations) :
    Stepped settings linear sys 0 st st'
  | step {k : ℕ} {st between st' : State ℝ n σ} {r : Vec ℝ n} {inner : σ} {v : Unit}
    (residual : (sys.residual st.x).run st.inner = .ok r inner)
    (advanced : (advance settings linear sys r).run ⟨st.x, st.progress.measured (Vec.norm r), inner⟩ = .ok v between)
    (rest : Stepped settings linear sys k between st') : Stepped settings linear sys (k + 1) st st'

/-- The iterations that an iteration counts are its steps. -/
theorem Ends.stepped {steps : ℕ} {first? : Option ℝ} {st st' : State ℝ n σ}
    (h : Ends settings linear sys steps first? st st') :
    ∃ k, st'.progress.iterations = st.progress.iterations + k ∧ Stepped settings linear sys k st st' := by
  induction h with
  | converged => exact ⟨0, rfl, .ended rfl rfl⟩
  | gaveUp => exact ⟨0, rfl, .ended rfl rfl⟩
  | step hr hadvance _ ih =>
    obtain ⟨k, hk, hstepped⟩ := ih
    obtain ⟨_, _, _, answer, -, -, hmoved, -⟩ := advance_ok hadvance
    have hone := hmoved.iterations
    simp only [Progress.measured] at hone
    exact ⟨k + 1, by omega, .step hr hadvance hstepped⟩

theorem solve_stepped {u : Unit} {st st' : State ℝ n σ} (h : (solve settings linear sys none).run st = .ok u st') :
    Stepped settings linear sys st'.progress.iterations
      { st with progress := { Progress.none with norm := st.progress.norm } } st' := by
  obtain ⟨k, hk, hstepped⟩ := (solve_ends h).stepped
  obtain rfl : st'.progress.iterations = k := hk.trans (Nat.zero_add k)
  exact hstepped

/-- A property of iterate and system that the evaluations and the damped steps keep holds when a solve ends if it held
when the solve began. -/
theorem solve_keeps {P : Vec ℝ n → σ → Prop} (hlinear : Sound linear)
    (hresidual : ∀ x s r s', P x s → (sys.residual x).run s = .ok r s' → P x s')
    (hbuild : ∀ build, sys.precondition = some build → ∀ x J s C s', P x s → (build J).run s = .ok C s' → P x s')
    (hstep : ∀ x s r s' J s'' step alpha, P x s → (sys.residual x).run s = .ok r s' →
      (sys.gradient x).run s' = .ok J s'' → J.mulVec step = r → settings.alpha = .ok alpha →
      P (Vec.subScaled x alpha step) s'')
    {u : Unit} {st st' : State ℝ n σ} (hst : P st.x st.inner)
    (h : (solve settings linear sys none).run st = .ok u st') : P st'.x st'.inner := by
  have key : ∀ {steps first? a b}, Ends settings linear sys steps first? a b → P a.x a.inner → P b.x b.inner := by
    intro steps first? a b hends
    induction hends with
    | converged hr => exact fun ha => hresidual _ _ _ _ ha hr
    | gaveUp hr => exact fun ha => hresidual _ _ _ _ ha hr
    | step hr hadvance _ ih =>
      intro ha
      obtain ⟨J, C, inner', answer, hJ, hanswer, hmoved, hinner⟩ := advance_ok hadvance
      obtain ⟨alpha, halpha, hx⟩ := hmoved.x
      refine ih ?_
      rw [hx]
      have hnext := hstep _ _ _ _ _ _ _ _ ha hr hJ (hlinear _ _ _ _ hanswer hmoved.info) halpha
      rcases hinner with hinner | ⟨build, hprecondition, hC⟩
      · rw [hinner]
        exact hnext
      · exact hbuild build hprecondition _ _ _ _ _ hnext hC
  exact key (solve_ends h) hst

/-! ### The end of a solve -/

/-- An advance keeps what its calls, its reports and the damped step keep, in any number system. -/
theorem keeps_advance_of {K : Type} [Scalar K] {settings : Settings K} {linear : LinearSolver K n} {sys : System K n σ}
    {Q : State K n σ → Prop} (hgradient : ∀ x, Keeps Q (onSystem (sys.gradient x)))
    (hbuild : ∀ build, sys.precondition = some build → ∀ J, Keeps Q (onSystem (build J)))
    (hreport : ∀ event, Keeps Q (report event)) (hmove : ∀ alpha step, Keeps Q (modify fun s : State K n σ => { s with
      x := Vec.subScaled s.x alpha step
      progress.iterations := s.progress.iterations + 1 } : Action K n σ Unit))
    (r : Vec K n) : Keeps Q (advance settings linear sys r) := by
  have hanswer : ∀ answer : LinearStep K n, Keeps Q (do
      if answer.info < 0 then throw (.notConverged "Newton GMRES" 0 answer.info)
      if 0 < answer.info then report (.stalled (← get).progress.iterations)
      let alpha ← MonadExcept.ofExcept settings.alpha
      modify fun s => { s with
        x := Vec.subScaled s.x alpha answer.step
        progress.iterations := s.progress.iterations + 1 } : Action K n σ Unit) := by
    intro answer
    dsimp only
    split
    · exact .throw_bind _ _
    · split
      · exact .bind .get fun _ => .bind (hreport _) fun _ => .bind (.ofExcept _) fun _ => hmove _ _
      · exact .bind (.ofExcept _) fun _ => hmove _ _
  refine .bind .get fun st => .bind (hgradient st.x) fun J => ?_
  cases hprecondition : sys.precondition with
  | none => exact .bind (.pure _) fun P => .bind (.ofExcept _) hanswer
  | some build => exact .bind (hbuild build hprecondition J) fun P => .bind (.ofExcept _) hanswer

section Ending

variable {P : σ → Prop}

theorem keeps_onSystem {α : Type} {act : EStateM (Failure ℝ) σ α} (h : Keeps P act) :
    Keeps (fun st : State ℝ n σ => P st.inner) (onSystem act) := by
  intro st hst
  unfold stateAfter
  cases hrun : act.run st.inner with
  | ok a inner =>
    rw [onSystem_eq_ok.2 ⟨inner, hrun, rfl⟩]
    exact h.of_run_ok hst hrun
  | error e inner =>
    rw [onSystem_eq_error.2 ⟨inner, hrun, rfl⟩]
    exact h.of_run_error hst hrun

theorem keeps_report (event : Event ℝ) : Keeps (fun st : State ℝ n σ => P st.inner) (report event) :=
  .modify fun _ h => h

theorem keeps_measure (hresidual : ∀ x, Keeps P (sys.residual x)) :
    Keeps (fun st : State ℝ n σ => P st.inner) (measure settings sys none) := by
  refine .bind (.bind .get fun st => .bind (keeps_onSystem (hresidual st.x)) fun _ => .pure _) fun r => ?_
  refine .bind (.modify fun _ h => h) fun _ => .bind ?_ fun _ => .bind .get fun _ =>
    .bind (keeps_report _) fun _ => .pure _
  exact .bind (.ofExcept _) fun _ => .pure _

theorem keeps_advance (hgradient : ∀ x, Keeps P (sys.gradient x))
    (hbuild : ∀ build, sys.precondition = some build → ∀ J, Keeps P (build J)) (r : Vec ℝ n) :
    Keeps (fun st : State ℝ n σ => P st.inner) (advance settings linear sys r) :=
  keeps_advance_of (fun x => keeps_onSystem (hgradient x)) (fun build h J => keeps_onSystem (hbuild build h J))
    keeps_report (fun _ _ => .modify fun _ h => h) r

variable (hresidual : ∀ x, Keeps P (sys.residual x)) (hgradient : ∀ x, Keeps P (sys.gradient x))
  (hbuild : ∀ build, sys.precondition = some build → ∀ J, Keeps P (build J))
include hresidual hgradient hbuild

theorem keeps_iterate (steps : ℕ) (first? : Option ℝ) :
    Keeps (fun st : State ℝ n σ => P st.inner) (iterate settings linear sys none steps first?) := by
  induction steps generalizing first? with
  | zero =>
    unfold iterate
    refine .bind (keeps_measure hresidual) fun p => .bind (.ofExcept _) fun bound => ?_
    dsimp only
    split
    · exact .bind (.modify fun _ h => h) fun _ => .bind .get fun _ => keeps_report _
    · exact .bind (.bind (.ofExcept _) fun _ => .pure _) fun _ => .bind .get fun _ => keeps_report _
  | succ steps ih =>
    unfold iterate
    refine .bind (keeps_measure hresidual) fun p => .bind (.ofExcept _) fun bound => ?_
    dsimp only
    split
    · exact .bind (.modify fun _ h => h) fun _ => .bind .get fun _ => keeps_report _
    · exact .bind (keeps_advance hgradient hbuild _) fun _ => ih _

/-- What the evaluations keep, a solve keeps, whether it succeeds or fails. -/
theorem keeps_solve : Keeps (fun st : State ℝ n σ => P st.inner) (solve settings linear sys none) :=
  .bind (.modify fun _ h => h) fun _ => keeps_iterate hresidual hgradient hbuild _ _

/-- The first residual of an iteration and the last one, each evaluated in a system that has the property `P`.  The last
one is within the bound that the first one sets, or it is not and all steps were taken. -/
theorem Ends.first_last {steps : ℕ} {first? : Option ℝ} {a b : State ℝ n σ}
    (h : Ends settings linear sys steps first? a b) (ha : P a.inner) :
    ∃ r₀ mid r before bound, (sys.residual a.x).run a.inner = .ok r₀ mid ∧ P before ∧
      (sys.residual b.x).run before = .ok r b.inner ∧ b.progress.norm = some (Vec.norm r) ∧
      settings.bound (first?.getD (Vec.norm r₀)) = .ok bound ∧
      (b.progress.converged = true ∧ Vec.norm r ≤ bound ∧ b.progress.iterations ≤ a.progress.iterations + steps ∨
        b.progress.converged = a.progress.converged ∧ bound < Vec.norm r ∧
          b.progress.iterations = a.progress.iterations + steps ∧ ∃ limit, settings.maxIter = .ok limit) := by
  -- the bound is set by the first residual of all, which a step hands on, so that the hypothesis for the rest has it
  induction h with
  | converged hr hbound hle => exact ⟨_, _, _, _, _, hr, ha, hr, rfl, hbound, .inl ⟨rfl, hle, Nat.le_add_right _ _⟩⟩
  | gaveUp hr hbound hlt hlimit => exact ⟨_, _, _, _, _, hr, ha, hr, rfl, hbound, .inr ⟨rfl, hlt, rfl, hlimit⟩⟩
  | step hr hadvance _ ih =>
    have hinner := (hresidual _).of_run_ok ha hr
    have hbetween := (keeps_advance hgradient hbuild _).of_run_ok hinner hadvance
    obtain ⟨_, _, _, answer, -, -, hmoved, -⟩ := advance_ok hadvance
    obtain ⟨_, _, r, before, bound, -, hbefore, hlast, hnorm, hbound, hend⟩ := ih hbetween
    refine ⟨_, _, r, before, bound, hr, hbefore, hlast, hnorm, hbound, ?_⟩
    have hiterations := hmoved.iterations
    have hconverged := hmoved.converged
    simp only [Progress.measured] at hiterations hconverged
    rcases hend with ⟨hyes, hle, hsteps⟩ | ⟨hno, hlt, hsteps, hlimit⟩
    · exact .inl ⟨hyes, hle, by omega⟩
    · exact .inr ⟨hno.trans hconverged, hlt, by omega, hlimit⟩

/-- How a solve that does not fail has ended. -/
theorem solve_first_last {u : Unit} {st st' : State ℝ n σ} (h : (solve settings linear sys none).run st = .ok u st')
    (hst : P st.inner) :
    ∃ r₀ mid r before bound, (sys.residual st.x).run st.inner = .ok r₀ mid ∧ P before ∧
      (sys.residual st'.x).run before = .ok r st'.inner ∧ st'.progress.norm = some (Vec.norm r) ∧
      settings.bound (Vec.norm r₀) = .ok bound ∧
      (st'.progress.converged = true ∧ Vec.norm r ≤ bound ∧ st'.progress.iterations ≤ settings.steps ∨
        st'.progress.converged = false ∧ bound < Vec.norm r ∧ st'.progress.iterations = settings.steps ∧
          ∃ limit, settings.maxIter = .ok limit) := by
  obtain ⟨r₀, mid, r, before, bound, hfirst, hbefore, hlast, hnorm, hbound, hend⟩ :=
    (solve_ends h).first_last hresidual hgradient hbuild hst
  refine ⟨r₀, mid, r, before, bound, hfirst, hbefore, hlast, hnorm, hbound, ?_⟩
  simp only [Progress.none, zero_add] at hend
  exact hend

end Ending

end Magnetofluid.Newton
