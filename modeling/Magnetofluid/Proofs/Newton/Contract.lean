import Mathlib
import Magnetofluid.Proofs.Newton.Calls

/-!
# The contract of Newton's method

What a solve does for any system whose evaluations succeed and any answers of the linear solver.

* `Newton.solve_eq_less`: a right-hand side is a part of the residual.
* `Newton.System.Computes`, `Newton.Answers`: such a system, and the call that a step makes of the linear solver.
* `Newton.Course`: what a solve has done when it ends, each call in the state that the one before it has left.
* `Newton.iterate_run`, `Newton.solve_run`: a solve comes to its end within the bound, at the last step that is allowed,
  or where an answer of the linear solver cannot be used.
* `Newton.solve_contract`: the same with a right-hand side, and with the calls that the solve has made.
-/

namespace Magnetofluid.Newton

variable {n : ℕ} {σ : Type} {settings : Settings ℝ} {linear : LinearSolver ℝ n} {sys : System ℝ n σ}

/-! ### Right-hand side -/

def less (b : Option (Vec ℝ n)) (r : Vec ℝ n) : Vec ℝ n :=
  match b with
  | none => r
  | some b => r - b

/-- The system with a right-hand side taken from its residual. -/
def System.less (sys : System ℝ n σ) (b : Option (Vec ℝ n)) : System ℝ n σ :=
  { sys with residual := fun x => do return Newton.less b (← sys.residual x) }

theorem less_injective (b : Option (Vec ℝ n)) : Function.Injective (less b) := by
  intro r r' h
  cases b with
  | none => exact h
  | some b =>
    refine Vec.values_injective ?_
    have hvalues : (r - b).values = (r' - b).values := congrArg Vec.values h
    rw [Vec.values_sub, Vec.values_sub] at hvalues
    exact sub_left_inj.1 hvalues

theorem System.residual_of_less {b : Option (Vec ℝ n)} {x r : Vec ℝ n} {s s' : σ}
    (h : ((sys.less b).residual x).run s = .ok (Newton.less b r) s') : (sys.residual x).run s = .ok r s' := by
  obtain ⟨r', t, hr, hpure⟩ := run_bind_eq_ok.1 h
  obtain ⟨hless, rfl⟩ := run_pure_eq_ok.1 hpure
  rw [hr, less_injective b hless]

theorem residualLess_eq (b : Option (Vec ℝ n)) : residualLess sys b = residualLess (sys.less b) none := by
  refine bind_congr fun st => ?_
  have hless : (onSystem ((sys.less b).residual st.x) : Action ℝ n σ (Vec ℝ n)) =
      onSystem (sys.residual st.x) >>= fun r => onSystem (pure (Newton.less b r)) := onSystem_bind _ _
  rw [hless, bind_assoc]
  refine bind_congr fun r => ?_
  cases b with
  | none => rfl
  | some b => rfl

theorem iterate_eq_less (b : Option (Vec ℝ n)) (steps : ℕ) (first? : Option ℝ) :
    iterate settings linear sys b steps first? = iterate settings linear (sys.less b) none steps first? := by
  have hmeasure : measure settings sys b = measure settings (sys.less b) none := by
    unfold measure
    rw [residualLess_eq]
  induction steps generalizing first? with
  | zero =>
    unfold iterate
    rw [hmeasure]
  | succ steps ih =>
    unfold iterate
    rw [hmeasure]
    refine bind_congr fun p => bind_congr fun bound => ?_
    dsimp only
    rw [ih]
    rfl

theorem solve_eq_less (b : Option (Vec ℝ n)) :
    solve settings linear sys b = solve settings linear (sys.less b) none := by
  unfold solve
  rw [iterate_eq_less]

/-! ### Systems whose evaluations succeed -/

/-- The values that a solve finds in its settings. -/
structure Settings.Given (settings : Settings ℝ) (rtol atol alpha : ℝ) (limit : ℤ) : Prop where
  rtol : settings.rtol = .ok rtol
  atol : settings.atol = .ok atol
  alpha : settings.alpha = .ok alpha
  maxIter : settings.maxIter = .ok limit
  verbose : ∃ verbose, settings.verbose = .ok verbose

theorem Settings.Given.bound {rtol atol alpha : ℝ} {limit : ℤ} (h : settings.Given rtol atol alpha limit) (first : ℝ) :
    settings.bound first = .ok (max (rtol * first) atol) := bound_eq_ok.2 ⟨rtol, atol, h.rtol, h.atol, rfl⟩

/-- In states that have a property the evaluations of a system succeed and keep it, and the residual is a function of
the iterate. -/
structure System.Computes (sys : System ℝ n σ) (Q : σ → Prop) (F : Vec ℝ n → Vec ℝ n) : Prop where
  residual : ∀ x s, Q s → ∃ s', (sys.residual x).run s = .ok (F x) s' ∧ Q s'
  gradient : ∀ x s, Q s → ∃ J s', (sys.gradient x).run s = .ok J s' ∧ Q s'
  precondition : ∀ build, sys.precondition = some build → ∀ J s, Q s → ∃ P s', (build J).run s = .ok P s' ∧ Q s'

/-- What a step asks of a system before it asks the linear solver: a linearisation at an iterate, and the
preconditioner for it. -/
noncomputable def System.linearisation (sys : System ℝ n σ) (x : Vec ℝ n) :
    EStateM (Failure ℝ) σ (Sparse ℝ n n × Krylov.Preconditioner ℝ n) := do
  let J ← sys.gradient x
  match sys.precondition with
  | none => return (J, .identity)
  | some build => return (J, ← build J)

/-- From one state of the system to another a step asks for the linearisation at an iterate, and the linear solver has
an answer to it for a residual. -/
def Answers (sys : System ℝ n σ) (linear : LinearSolver ℝ n) (s : σ) (x r : Vec ℝ n) (answer : LinearStep ℝ n)
    (s' : σ) : Prop :=
  ∃ J P, (sys.linearisation x).run s = .ok (J, P) s' ∧ linear J P r = .ok answer

/-- The linear solver has an answer to every linearisation of a system in states that have a property. -/
def Answering (sys : System ℝ n σ) (Q : σ → Prop) (linear : LinearSolver ℝ n) : Prop :=
  ∀ x s, Q s → ∀ J P s', (sys.linearisation x).run s = .ok (J, P) s' → ∀ r, ∃ answer, linear J P r = .ok answer

theorem System.linearisation_eq_ok {x : Vec ℝ n} {s s' : σ} {J : Sparse ℝ n n} {P : Krylov.Preconditioner ℝ n} :
    (sys.linearisation x).run s = .ok (J, P) s' ↔ ∃ t, (sys.gradient x).run s = .ok J t ∧
      (sys.precondition = none ∧ P = .identity ∧ s' = t ∨
        ∃ build, sys.precondition = some build ∧ (build J).run t = .ok P s') := by
  unfold linearisation
  rw [run_bind_eq_ok]
  cases sys.precondition with
  | none =>
    constructor
    · rintro ⟨J', t, hJ, hpure⟩
      obtain ⟨hpair, rfl⟩ := run_pure_eq_ok.1 hpure
      obtain ⟨rfl, rfl⟩ := Prod.mk.inj hpair
      exact ⟨_, hJ, .inl ⟨rfl, rfl, rfl⟩⟩
    · rintro ⟨t, hJ, ⟨-, rfl, rfl⟩ | ⟨build, hbuild, -⟩⟩
      · exact ⟨J, _, hJ, rfl⟩
      · cases hbuild
  | some build =>
    constructor
    · rintro ⟨J', t, hJ, hrest⟩
      obtain ⟨P', t', hP, hpure⟩ := run_bind_eq_ok.1 hrest
      obtain ⟨hpair, rfl⟩ := run_pure_eq_ok.1 hpure
      obtain ⟨rfl, rfl⟩ := Prod.mk.inj hpair
      exact ⟨t, hJ, .inr ⟨build, rfl, hP⟩⟩
    · rintro ⟨t, hJ, ⟨hbuild, -⟩ | ⟨build', hbuild, hP⟩⟩
      · cases hbuild
      · obtain rfl := Option.some.inj hbuild
        exact ⟨J, t, hJ, run_bind_of_eq_ok hP _⟩

theorem System.Computes.linearisation {Q : σ → Prop} {F : Vec ℝ n → Vec ℝ n} (h : sys.Computes Q F) (x : Vec ℝ n)
    {s : σ} (hs : Q s) : ∃ J P s', (sys.linearisation x).run s = .ok (J, P) s' ∧ Q s' := by
  obtain ⟨J, t, hJ, ht⟩ := h.gradient x s hs
  cases hprecondition : sys.precondition with
  | none => exact ⟨J, .identity, t, System.linearisation_eq_ok.2 ⟨t, hJ, .inl ⟨hprecondition, rfl, rfl⟩⟩, ht⟩
  | some build =>
    obtain ⟨P, t', hP, ht'⟩ := h.precondition build hprecondition J t ht
    exact ⟨J, P, t', System.linearisation_eq_ok.2 ⟨t, hJ, .inr ⟨build, hprecondition, hP⟩⟩, ht'⟩

/-! ### One turn -/

theorem dampedStep_run {J : Sparse ℝ n n} {P : Krylov.Preconditioner ℝ n} {r : Vec ℝ n} {answer : LinearStep ℝ n}
    (hanswer : linear J P r = .ok answer) (hinfo : 0 ≤ answer.info) {alpha : ℝ} (halpha : settings.alpha = .ok alpha)
    (st : State ℝ n σ) :
    ∃ events, (dampedStep settings linear J P r).run st = .ok () ⟨Vec.subScaled st.x alpha answer.step,
      { st.progress with iterations := st.progress.iterations + 1, events }, st.inner⟩ := by
  unfold dampedStep
  rw [hanswer, halpha]
  by_cases hpos : 0 < answer.info
  · refine ⟨.stalled st.progress.iterations :: st.progress.events, ?_⟩
    refine run_bind_eq_ok.2 ⟨answer, st, rfl, ?_⟩
    rw [if_neg hinfo.not_gt, if_pos hpos]
    rfl
  · refine ⟨st.progress.events, run_bind_eq_ok.2 ⟨answer, st, rfl, ?_⟩⟩
    rw [if_neg hinfo.not_gt, if_neg hpos]
    rfl

theorem dampedStep_refused {J : Sparse ℝ n n} {P : Krylov.Preconditioner ℝ n} {r : Vec ℝ n} {answer : LinearStep ℝ n}
    (hanswer : linear J P r = .ok answer) (hinfo : answer.info < 0) (st : State ℝ n σ) :
    (dampedStep settings linear J P r).run st = .error (.notConverged "Newton GMRES" 0 answer.info) st := by
  unfold dampedStep
  rw [hanswer]
  refine run_bind_eq_error.2 (.inr ⟨answer, st, rfl, ?_⟩)
  rw [if_pos hinfo]
  rfl

/-- An advance whose linearisation succeeds goes on with its damped step. -/
theorem advance_of_linearisation {st : State ℝ n σ} {J : Sparse ℝ n n} {P : Krylov.Preconditioner ℝ n} {s : σ}
    (h : (sys.linearisation st.x).run st.inner = .ok (J, P) s) (r : Vec ℝ n) :
    (advance settings linear sys r).run st = (dampedStep settings linear J P r).run { st with inner := s } := by
  obtain ⟨t, hJ, hbuilt⟩ := System.linearisation_eq_ok.1 h
  have hgradient : (onSystem (sys.gradient st.x) : Action ℝ n σ _).run st = .ok J { st with inner := t } :=
    onSystem_eq_ok.2 ⟨t, hJ, rfl⟩
  rw [advance_eq]
  simp only [run_get_bind, run_bind_of_eq_ok hgradient]
  rcases hbuilt with ⟨hprecondition, rfl, rfl⟩ | ⟨build, hprecondition, hP⟩
  · rw [hprecondition]
    rfl
  · rw [hprecondition]
    exact run_bind_of_eq_ok (onSystem_eq_ok.2 ⟨_, hP, rfl⟩) _

section Turn

variable {Q : σ → Prop} {F : Vec ℝ n → Vec ℝ n} (hsys : sys.Computes Q F) {rtol atol alpha : ℝ} {limit : ℤ}
  (hsettings : settings.Given rtol atol alpha limit)
include hsys hsettings

theorem measure_run (st : State ℝ n σ) (hst : Q st.inner) :
    ∃ s, (sys.residual st.x).run st.inner = .ok (F st.x) s ∧ Q s ∧
      (measure settings sys none).run st = .ok (F st.x, Vec.norm (F st.x))
        ⟨st.x, st.progress.measured (Vec.norm (F st.x)), s⟩ := by
  obtain ⟨s, hr, hs⟩ := hsys.residual st.x st.inner hst
  exact ⟨s, hr, hs, measure_eq_ok.2 ⟨hsettings.verbose, s, hr, rfl, rfl⟩⟩

/-- A turn ends within the bound, at the last step that is allowed, or with an advance. -/
theorem iterate_turn (steps : ℕ) (first? : Option ℝ) (st : State ℝ n σ) (hst : Q st.inner) {bound : ℝ}
    (hbound : bound = max (rtol * first?.getD (Vec.norm (F st.x))) atol) :
    ∃ s, (sys.residual st.x).run st.inner = .ok (F st.x) s ∧ Q s ∧
      (Vec.norm (F st.x) ≤ bound → ∃ events, (iterate settings linear sys none steps first?).run st = .ok ()
        ⟨st.x, { st.progress.measured (Vec.norm (F st.x)) with converged := true, events }, s⟩) ∧
      (bound < Vec.norm (F st.x) → steps = 0 → ∃ events, (iterate settings linear sys none steps first?).run st = .ok ()
        ⟨st.x, { st.progress.measured (Vec.norm (F st.x)) with events }, s⟩) ∧
      (bound < Vec.norm (F st.x) → ∀ fewer, steps = fewer + 1 →
        (iterate settings linear sys none steps first?).run st =
          (advance settings linear sys (F st.x) >>= fun _ =>
            iterate settings linear sys none fewer (some (first?.getD (Vec.norm (F st.x))))).run
              ⟨st.x, st.progress.measured (Vec.norm (F st.x)), s⟩) := by
  obtain ⟨s, hr, hs, hmeasure⟩ := measure_run hsys hsettings st hst
  have hlook : (MonadExcept.ofExcept (settings.bound (first?.getD (Vec.norm (F st.x)))) : Action ℝ n σ ℝ).run
      ⟨st.x, st.progress.measured (Vec.norm (F st.x)), s⟩ = .ok bound _ :=
    run_ofExcept_eq_ok.2 ⟨by rw [hsettings.bound, hbound], rfl⟩
  refine ⟨s, hr, hs, fun hle => ?_, fun hlt hsteps => ?_, fun hlt fewer hsteps => ?_⟩
  · have hscalar : Scalar.le (Vec.norm (F st.x)) bound = true := decide_eq_true hle
    refine ⟨.converged st.progress.iterations (Vec.norm (F st.x)) ::
      (st.progress.measured (Vec.norm (F st.x))).events, ?_⟩
    unfold iterate
    refine run_bind_eq_ok.2 ⟨_, _, hmeasure, run_bind_eq_ok.2 ⟨_, _, hlook, ?_⟩⟩
    rw [if_pos hscalar]
    rfl
  · have hscalar : ¬ Scalar.le (Vec.norm (F st.x)) bound = true := fun h => hlt.not_ge (of_decide_eq_true h)
    subst hsteps
    refine ⟨.gaveUp st.progress.iterations (Vec.norm (F st.x)) ::
      (st.progress.measured (Vec.norm (F st.x))).events, ?_⟩
    unfold iterate
    refine run_bind_eq_ok.2 ⟨_, _, hmeasure, run_bind_eq_ok.2 ⟨_, _, hlook, ?_⟩⟩
    rw [if_neg hscalar, hsettings.maxIter]
    rfl
  · have hscalar : ¬ Scalar.le (Vec.norm (F st.x)) bound = true := fun h => hlt.not_ge (of_decide_eq_true h)
    subst hsteps
    rw [iterate]
    refine (run_bind_of_eq_ok hmeasure _).trans ((run_bind_of_eq_ok hlook _).trans ?_)
    rw [if_neg hscalar]

variable (hlinear : Answering sys Q linear)
include hlinear

/-- An advance asks the linear solver once and follows its answer, or refuses it. -/
theorem advance_run (r : Vec ℝ n) (st : State ℝ n σ) (hst : Q st.inner) :
    ∃ answer s, Answers sys linear st.inner st.x r answer s ∧ Q s ∧
      (0 ≤ answer.info → ∃ events, (advance settings linear sys r).run st = .ok ()
        ⟨Vec.subScaled st.x alpha answer.step,
          { st.progress with iterations := st.progress.iterations + 1, events }, s⟩) ∧
      (answer.info < 0 → (advance settings linear sys r).run st =
        .error (.notConverged "Newton GMRES" 0 answer.info) { st with inner := s }) := by
  obtain ⟨J, P, s, hlinearisation, hs⟩ := hsys.linearisation st.x hst
  obtain ⟨answer, hanswer⟩ := hlinear _ _ hst J P s hlinearisation r
  rw [advance_of_linearisation hlinearisation]
  refine ⟨answer, s, ⟨J, P, hlinearisation, hanswer⟩, hs, fun hinfo => ?_, fun hinfo => ?_⟩
  · exact dampedStep_run hanswer hinfo hsettings.alpha { st with inner := s }
  · exact dampedStep_refused hanswer hinfo { st with inner := s }

end Turn

/-! ### A run -/

/-- The steps of a solve between two of its states: its iterates, the states in which their residuals have left the
system, and the answers that the linear solver gave from there. -/
structure Course (sys : System ℝ n σ) (linear : LinearSolver ℝ n) (F : Vec ℝ n → Vec ℝ n) (alpha bound : ℝ) (k : ℕ)
    (xs : ℕ → Vec ℝ n) (ss : ℕ → σ) (st st' : State ℝ n σ) : Prop where
  start : xs 0 = st.x
  measured : (sys.residual st.x).run st.inner = .ok (F st.x) (ss 0)
  stop : st'.x = xs k
  iterations : st'.progress.iterations = st.progress.iterations + k
  norm : st'.progress.norm = some (Vec.norm (F (xs k)))
  history : st'.progress.history.reverse =
    st.progress.history.reverse ++ (List.range (k + 1)).map fun i => Vec.norm (F (xs i))
  outside : ∀ i < k, bound < Vec.norm (F (xs i))
  step : ∀ i < k, ∃ answer s', Answers sys linear (ss i) (xs i) (F (xs i)) answer s' ∧ 0 ≤ answer.info ∧
    xs (i + 1) = Vec.subScaled (xs i) alpha answer.step ∧
    (sys.residual (xs (i + 1))).run s' = .ok (F (xs (i + 1))) (ss (i + 1))

def before {α : Type} (a : α) (as : ℕ → α) : ℕ → α
  | 0 => a
  | i + 1 => as i

namespace Course

variable {F : Vec ℝ n → Vec ℝ n} {alpha bound : ℝ} {st : State ℝ n σ} {s : σ}

theorem here (hmeasured : (sys.residual st.x).run st.inner = .ok (F st.x) s) (p : Progress ℝ) (s' : σ)
    (hiterations : p.iterations = st.progress.iterations) (hnorm : p.norm = some (Vec.norm (F st.x)))
    (hhistory : p.history = Vec.norm (F st.x) :: st.progress.history) :
    Course sys linear F alpha bound 0 (fun _ => st.x) (fun _ => s) st ⟨st.x, p, s'⟩ where
  start := rfl
  measured := hmeasured
  stop := rfl
  iterations := hiterations
  norm := hnorm
  history := by
    rw [hhistory, List.reverse_cons]
    rfl
  outside := nofun
  step := nofun

theorem cons {answer : LinearStep ℝ n} {between st' : State ℝ n σ} {k : ℕ} {xs : ℕ → Vec ℝ n} {ss : ℕ → σ}
    (h : Course sys linear F alpha bound k xs ss between st')
    (hmeasured : (sys.residual st.x).run st.inner = .ok (F st.x) s)
    (hanswer : Answers sys linear s st.x (F st.x) answer between.inner) (hinfo : 0 ≤ answer.info)
    (houtside : bound < Vec.norm (F st.x)) (hx : between.x = Vec.subScaled st.x alpha answer.step)
    (hiterations : between.progress.iterations = st.progress.iterations + 1)
    (hhistory : between.progress.history = Vec.norm (F st.x) :: st.progress.history) :
    Course sys linear F alpha bound (k + 1) (before st.x xs) (before s ss) st st' where
  start := rfl
  measured := hmeasured
  stop := h.stop
  iterations := by
    rw [h.iterations, hiterations]
    omega
  norm := h.norm
  history := by
    rw [h.history, hhistory, List.reverse_cons, List.append_assoc, List.range_succ_eq_map (n := k + 1), List.map_cons,
      List.map_map]
    rfl
  outside := by
    rintro (_ | i) hi
    · exact houtside
    · exact h.outside i (by omega)
  step := by
    rintro (_ | i) hi
    · refine ⟨answer, between.inner, hanswer, hinfo, h.start.trans hx, ?_⟩
      show (sys.residual (xs 0)).run between.inner = .ok (F (xs 0)) (ss 0)
      rw [h.start]
      exact h.measured
    · exact h.step i (by omega)

end Course

section Run

variable {Q : σ → Prop} {F : Vec ℝ n → Vec ℝ n} (hsys : sys.Computes Q F) {rtol atol alpha : ℝ} {limit : ℤ}
  (hsettings : settings.Given rtol atol alpha limit) (hlinear : Answering sys Q linear)
include hsys hsettings hlinear

theorem iterate_run (steps : ℕ) (first? : Option ℝ) (st : State ℝ n σ) (hst : Q st.inner) {bound : ℝ}
    (hbound : bound = max (rtol * first?.getD (Vec.norm (F st.x))) atol) :
    ∃ k xs ss st', Course sys linear F alpha bound k xs ss st st' ∧
      ((iterate settings linear sys none steps first?).run st = .ok () st' ∧ st'.inner = ss k ∧
          (st'.progress.converged = true ∧ Vec.norm (F (xs k)) ≤ bound ∧ k ≤ steps ∨
            st'.progress.converged = st.progress.converged ∧ bound < Vec.norm (F (xs k)) ∧ k = steps) ∨
        ∃ answer, Answers sys linear (ss k) (xs k) (F (xs k)) answer st'.inner ∧ answer.info < 0 ∧
          (iterate settings linear sys none steps first?).run st =
            .error (.notConverged "Newton GMRES" 0 answer.info) st' ∧
          st'.progress.converged = st.progress.converged ∧ bound < Vec.norm (F (xs k)) ∧ k < steps) := by
  -- the bound is that of the first norm, which each turn hands on, so that it is the same for the turns that follow
  induction steps generalizing first? st with
  | zero =>
    obtain ⟨s, hr, -, hwithin, houtside, -⟩ := iterate_turn hsys hsettings 0 first? st hst hbound
    rcases le_or_gt (Vec.norm (F st.x)) bound with hle | hlt
    · obtain ⟨events, hrun⟩ := hwithin hle
      exact ⟨0, _, _, _, .here hr { st.progress.measured _ with converged := true, events } s rfl rfl rfl,
        .inl ⟨hrun, rfl, .inl ⟨rfl, hle, le_rfl⟩⟩⟩
    · obtain ⟨events, hrun⟩ := houtside hlt rfl
      exact ⟨0, _, _, _, .here hr { st.progress.measured _ with events } s rfl rfl rfl,
        .inl ⟨hrun, rfl, .inr ⟨rfl, hlt, rfl⟩⟩⟩
  | succ steps ih =>
    obtain ⟨s, hr, hs, hwithin, -, hturn⟩ := iterate_turn hsys hsettings (steps + 1) first? st hst hbound
    rcases le_or_gt (Vec.norm (F st.x)) bound with hle | hlt
    · obtain ⟨events, hrun⟩ := hwithin hle
      exact ⟨0, _, _, _, .here hr { st.progress.measured _ with converged := true, events } s rfl rfl rfl,
        .inl ⟨hrun, rfl, .inl ⟨rfl, hle, Nat.zero_le _⟩⟩⟩
    rw [hturn hlt steps rfl]
    obtain ⟨answer, t, hanswer, ht, hfollows, hrefuses⟩ := advance_run hsys hsettings hlinear (F st.x)
      ⟨st.x, st.progress.measured (Vec.norm (F st.x)), s⟩ hs
    rcases lt_or_ge answer.info 0 with hinfo | hinfo
    · refine ⟨0, _, _, _, .here hr (st.progress.measured _) t rfl rfl rfl,
        .inr ⟨answer, hanswer, hinfo, ?_, rfl, hlt, Nat.succ_pos _⟩⟩
      exact run_bind_eq_error.2 (.inl (hrefuses hinfo))
    · obtain ⟨events, hadvance⟩ := hfollows hinfo
      rw [run_bind_of_eq_ok hadvance]
      let between : State ℝ n σ := ⟨Vec.subScaled st.x alpha answer.step,
        { st.progress.measured (Vec.norm (F st.x)) with iterations := st.progress.iterations + 1, events }, t⟩
      obtain ⟨k, xs, ss, st', hcourse, hend⟩ := ih (some (first?.getD (Vec.norm (F st.x)))) between ht hbound
      refine ⟨k + 1, _, _, st', hcourse.cons hr hanswer hinfo hlt rfl rfl rfl, ?_⟩
      rcases hend with ⟨hrun, hinner, hend⟩ | ⟨answer', hanswer', hinfo', hrun, hconverged, hlast, hk⟩
      · refine .inl ⟨hrun, hinner, hend.imp ?_ ?_⟩
        · exact fun ⟨hconverged, hlast, hk⟩ => ⟨hconverged, hlast, Nat.succ_le_succ hk⟩
        · exact fun ⟨hconverged, hlast, hk⟩ => ⟨hconverged, hlast, congrArg (· + 1) hk⟩
      · exact .inr ⟨answer', hanswer', hinfo', hrun, hconverged, hlast, Nat.succ_lt_succ hk⟩

/-- A solve comes to its end within the bound, at the last step that is allowed, or where an answer cannot be used. -/
theorem solve_run (x : Vec ℝ n) (p : Progress ℝ) (s : σ) (hs : Q s) :
    ∃ k xs ss st, Course sys linear F alpha (max (rtol * Vec.norm (F x)) atol) k xs ss
        ⟨x, { Progress.none with norm := p.norm }, s⟩ st ∧
      ((solve settings linear sys none).run ⟨x, p, s⟩ = .ok () st ∧ st.inner = ss k ∧
          (st.progress.converged = true ∧ Vec.norm (F (xs k)) ≤ max (rtol * Vec.norm (F x)) atol ∧ k ≤ settings.steps ∨
            st.progress.converged = false ∧ max (rtol * Vec.norm (F x)) atol < Vec.norm (F (xs k)) ∧
              k = settings.steps) ∨
        ∃ answer, Answers sys linear (ss k) (xs k) (F (xs k)) answer st.inner ∧ answer.info < 0 ∧
          (solve settings linear sys none).run ⟨x, p, s⟩ = .error (.notConverged "Newton GMRES" 0 answer.info) st ∧
          st.progress.converged = false ∧ max (rtol * Vec.norm (F x)) atol < Vec.norm (F (xs k)) ∧
          k < settings.steps) := by
  unfold solve reset
  rw [run_modify_bind]
  exact iterate_run hsys hsettings hlinear settings.steps none ⟨x, { Progress.none with norm := p.norm }, s⟩ hs rfl

end Run

/-! ### The contract -/

theorem System.Computes.less {Q : σ → Prop} {F : Vec ℝ n → Vec ℝ n} (h : sys.Computes Q F) (b : Option (Vec ℝ n)) :
    (sys.less b).Computes Q fun x => Newton.less b (F x) where
  residual := by
    intro x s hs
    obtain ⟨s', hr, hs'⟩ := h.residual x s hs
    exact ⟨s', run_bind_eq_ok.2 ⟨_, s', hr, rfl⟩, hs'⟩
  gradient := h.gradient
  precondition := h.precondition

/-- A solve that succeeds does so with its calls counted, and has made one of each kind in each step. -/
theorem exists_counting_run {b : Option (Vec ℝ n)} {x : Vec ℝ n} {p : Progress ℝ} {s : σ} {u : Unit} {st : State ℝ n σ}
    (h : (solve settings linear sys b).run ⟨x, p, s⟩ = .ok u st) :
    ∃ calls, (solve settings linear sys.counting b).run ⟨x, p, ⟨0, 0⟩, s⟩ = .ok u ⟨st.x, st.progress, calls, st.inner⟩ ∧
      calls.gradient = st.progress.iterations ∧
      calls.preconditioner = if sys.precondition.isSome then st.progress.iterations else 0 := by
  obtain ⟨⟨x', p', calls, s'⟩, hrun, rfl⟩ := erases_solve.exists_ok (s := ⟨x, p, ⟨0, 0⟩, s⟩) h
  have hcounted := solve_counting hrun
  exact ⟨calls, hrun, hcounted.gradient, hcounted.preconditioner⟩

/-- **The contract of Newton's method.**  For a system whose evaluations succeed, any right-hand side, any start and
limit, and whatever the linear solver answers, a solve takes at most as many steps as the limit allows.  Each step is
the damped answer to the residual at its iterate, with the linearisation and the preconditioner that the system gives in
the state in which that residual has left it; the next residual goes on from there.  The history holds the norms of the
residuals at the start and after each step, of which only the last one may be within the bound that the first one sets.
A solve that succeeds tells whether it is, has spent the limit if it is not, and has asked for linearisation and
preconditioner once in each step.  A solve fails only at an answer that cannot be used; it is then not converged and
still at its last iterate. -/
theorem solve_contract {Q : σ → Prop} {F : Vec ℝ n → Vec ℝ n} (hsys : sys.Computes Q F)
    {rtol atol alpha : ℝ} {limit : ℤ} (hsettings : settings.Given rtol atol alpha limit)
    (hlinear : Answering sys Q linear) (b : Option (Vec ℝ n)) (x : Vec ℝ n) (p : Progress ℝ) (s : σ) (hs : Q s) :
    ∃ (k : ℕ) (xs : ℕ → Vec ℝ n) (ss : ℕ → σ) (norms : ℕ → ℝ) (st : State ℝ n σ),
      (∀ i, norms i = Vec.norm (less b (F (xs i)))) ∧ xs 0 = x ∧ (sys.residual x).run s = .ok (F x) (ss 0) ∧
      st.x = xs k ∧ st.progress.iterations = k ∧ (k : ℤ) ≤ max limit 0 ∧ st.progress.norm = some (norms k) ∧
      st.progress.history.reverse = (List.range (k + 1)).map norms ∧
      (∀ i < k, max (rtol * norms 0) atol < norms i ∧ ∃ answer s',
        Answers sys linear (ss i) (xs i) (less b (F (xs i))) answer s' ∧ 0 ≤ answer.info ∧
          xs (i + 1) = Vec.subScaled (xs i) alpha answer.step ∧
          (sys.residual (xs (i + 1))).run s' = .ok (F (xs (i + 1))) (ss (i + 1))) ∧
      ((solve settings linear sys b).run ⟨x, p, s⟩ = .ok () st ∧ st.inner = ss k ∧
          (st.progress.converged = true ↔ norms k ≤ max (rtol * norms 0) atol) ∧
          (st.progress.converged = false → (k : ℤ) = max limit 0) ∧
          (∃ calls, (solve settings linear sys.counting b).run ⟨x, p, ⟨0, 0⟩, s⟩ =
            .ok () ⟨st.x, st.progress, calls, st.inner⟩ ∧ calls.gradient = k ∧
              calls.preconditioner = if sys.precondition.isSome then k else 0) ∨
        ∃ answer, Answers sys linear (ss k) (xs k) (less b (F (xs k))) answer st.inner ∧ answer.info < 0 ∧
          (solve settings linear sys b).run ⟨x, p, s⟩ = .error (.notConverged "Newton GMRES" 0 answer.info) st ∧
          st.progress.converged = false) := by
  obtain ⟨k, xs, ss, st, hcourse, hend⟩ := solve_run (hsys.less b) hsettings hlinear x p s hs
  obtain ⟨hstart, hmeasured, hstop, hiterations, hnorm, hhistory, houtside, hstep⟩ := hcourse
  have hiterations' : st.progress.iterations = k := hiterations.trans (Nat.zero_add k)
  have hsteps := steps_eq hsettings.maxIter
  rw [← solve_eq_less] at hend
  have hk : k ≤ settings.steps := by
    rcases hend with ⟨-, -, ⟨-, -, hk⟩ | ⟨-, -, hk⟩⟩ | ⟨-, -, -, -, -, -, hk⟩
    · exact hk
    · exact hk.le
    · exact hk.le
  subst hstart
  refine ⟨k, xs, ss, fun i => Vec.norm (less b (F (xs i))), st, fun _ => rfl, rfl, System.residual_of_less hmeasured,
    hstop, hiterations', by omega, hnorm, hhistory, fun i hi => ⟨houtside i hi, ?_⟩, ?_⟩
  · obtain ⟨answer, s', hanswer, hinfo, hx, hresidual⟩ := hstep i hi
    exact ⟨answer, s', hanswer, hinfo, hx, System.residual_of_less hresidual⟩
  rcases hend with ⟨hrun, hinner, hend⟩ | ⟨answer, hanswer, hinfo, hrun, hconverged, -⟩
  · obtain ⟨calls, hcounting, hgradient, hprecondition⟩ := exists_counting_run hrun
    rw [hiterations'] at hgradient hprecondition
    refine .inl ⟨hrun, hinner, ?_, ?_, calls, hcounting, hgradient, hprecondition⟩
    · rcases hend with ⟨hconverged, hlast, -⟩ | ⟨hconverged, hlast, -⟩
      · exact iff_of_true hconverged hlast
      · exact iff_of_false (by simp [hconverged]) hlast.not_ge
    · intro hno
      rcases hend with ⟨hconverged, -⟩ | ⟨-, -, hall⟩
      · rw [hconverged] at hno
        cases hno
      · omega
  · exact .inr ⟨answer, hanswer, hinfo, hrun, hconverged⟩

/-- The squares of one number, with division by the diagonal for the steps. -/
noncomputable def squares : System ℝ 1 Unit where
  residual x := pure (.ofFn fun i => x.get i * x.get i)
  gradient x := pure (.ofDiagonal (x + x))
  precondition := some fun J => pure (.jacobi (.ofFn fun i => (J.entry i i)⁻¹))

noncomputable def fullSteps : Settings ℝ where
  rtol := .ok 1e-8
  atol := .ok 1e-12
  maxIter := .ok 5
  alpha := .ok 1
  linearRtol := .ok 1e-8
  linearAtol := .ok 0
  linearMaxIter := .ok none
  restart := fun _ => .ok 50
  verbose := .ok false

/-- The linear solver that takes the preconditioner for the inverse. -/
noncomputable def byPreconditioner : LinearSolver ℝ 1 := fun _ P r => .ok ⟨P.apply r, 0⟩

theorem squares_computes : squares.Computes (fun _ => True) fun x => .ofFn fun i => x.get i * x.get i where
  residual := fun _ _ _ => ⟨_, rfl, trivial⟩
  gradient := fun _ _ _ => ⟨_, _, rfl, trivial⟩
  precondition := by
    intro build hbuild J s _
    obtain rfl := Option.some.inj hbuild
    exact ⟨_, _, rfl, trivial⟩

theorem solve_contract_squares :
    ∃ (k : ℕ) (xs : ℕ → Vec ℝ 1) (ss : ℕ → Unit) (norms : ℕ → ℝ) (st : State ℝ 1 Unit),
      (∀ i, norms i = Vec.norm (less (some (Vec.fill 1 2)) (.ofFn fun j => (xs i).get j * (xs i).get j))) ∧
      xs 0 = Vec.fill 1 1 ∧
      (squares.residual (Vec.fill 1 1)).run () = .ok (.ofFn fun j => (Vec.fill 1 1).get j * (Vec.fill 1 1).get j) (ss 0) ∧
      st.x = xs k ∧ st.progress.iterations = k ∧ (k : ℤ) ≤ max 5 0 ∧
      st.progress.norm = some (norms k) ∧ st.progress.history.reverse = (List.range (k + 1)).map norms ∧
      (∀ i < k, max (1e-8 * norms 0) 1e-12 < norms i ∧ ∃ answer s',
        Answers squares byPreconditioner (ss i) (xs i)
          (less (some (Vec.fill 1 2)) (.ofFn fun j => (xs i).get j * (xs i).get j)) answer s' ∧ 0 ≤ answer.info ∧
          xs (i + 1) = Vec.subScaled (xs i) 1 answer.step ∧
          (squares.residual (xs (i + 1))).run s' =
            .ok (.ofFn fun j => (xs (i + 1)).get j * (xs (i + 1)).get j) (ss (i + 1))) ∧
      ((solve fullSteps byPreconditioner squares (some (Vec.fill 1 2))).run ⟨Vec.fill 1 1, .none, ()⟩ = .ok () st ∧
          st.inner = ss k ∧
          (st.progress.converged = true ↔ norms k ≤ max (1e-8 * norms 0) 1e-12) ∧
          (st.progress.converged = false → (k : ℤ) = max 5 0) ∧
          (∃ calls, (solve fullSteps byPreconditioner squares.counting (some (Vec.fill 1 2))).run
            ⟨Vec.fill 1 1, .none, ⟨0, 0⟩, ()⟩ = .ok () ⟨st.x, st.progress, calls, st.inner⟩ ∧ calls.gradient = k ∧
              calls.preconditioner = if squares.precondition.isSome then k else 0) ∨
        ∃ answer, Answers squares byPreconditioner (ss k) (xs k)
            (less (some (Vec.fill 1 2)) (.ofFn fun j => (xs k).get j * (xs k).get j)) answer st.inner ∧ answer.info < 0 ∧
          (solve fullSteps byPreconditioner squares (some (Vec.fill 1 2))).run ⟨Vec.fill 1 1, .none, ()⟩ =
            .error (.notConverged "Newton GMRES" 0 answer.info) st ∧ st.progress.converged = false) := by
  have hsettings : fullSteps.Given 1e-8 1e-12 1 5 := ⟨rfl, rfl, rfl, rfl, false, rfl⟩
  have hlinear : Answering squares (fun _ => True) byPreconditioner := fun _ _ _ _ _ _ _ _ => ⟨_, rfl⟩
  exact solve_contract squares_computes hsettings hlinear (some (Vec.fill 1 2)) (Vec.fill 1 1) .none () trivial

end Magnetofluid.Newton
