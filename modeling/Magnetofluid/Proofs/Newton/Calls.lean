import Mathlib
import Magnetofluid.Proofs.Newton.Solver

/-!
# Counting the calls of Newton's method

A system that counts how often its linearisation and its preconditioner are asked for, and is otherwise the given one.

* `Erases`: an action on a state with more to it than another one, which otherwise goes the same way.
* `Newton.System.counting`, `Newton.erases_solve`: counting changes nothing about a solve.
* `Newton.solve_counting`: each step of a solve that succeeds has asked once for the linearisation, and once for the
  preconditioner if there is one.
-/

namespace Magnetofluid

variable {ε σ τ α β : Type}

/-! ### Actions with more in their state -/

def mapState (f : σ → τ) : EStateM.Result ε σ α → EStateM.Result ε τ α
  | .ok a s => .ok a (f s)
  | .error e s => .error e (f s)

/-- An action goes as another one does on a part of the state. -/
def Erases (f : σ → τ) (x : EStateM ε σ α) (y : EStateM ε τ α) : Prop := ∀ s, mapState f (x.run s) = y.run (f s)

namespace Erases

variable {f : σ → τ}

theorem pure (a : α) : Erases f (Pure.pure a : EStateM ε σ α) (Pure.pure a) := fun _ => rfl

theorem throw (e : ε) : Erases f (MonadExcept.throw e : EStateM ε σ α) (MonadExcept.throw e) := fun _ => rfl

theorem throw_bind (e : ε) (g : α → EStateM ε σ β) (h : α → EStateM ε τ β) :
    Erases f (MonadExcept.throw e >>= g) (MonadExcept.throw e >>= h) := fun _ => rfl

theorem modify {g : σ → σ} {h : τ → τ} (hgh : ∀ s, f (g s) = h (f s)) :
    Erases f (modify g : EStateM ε σ PUnit) (modify h) := by
  intro s
  rw [EStateM.run_modify, EStateM.run_modify, ← hgh]
  rfl

theorem ofExcept (x : Except ε α) : Erases f (MonadExcept.ofExcept x : EStateM ε σ α) (MonadExcept.ofExcept x) := by
  cases x with
  | ok a => exact pure a
  | error e => exact throw e

theorem bind {x : EStateM ε σ α} {y : EStateM ε τ α} {g : α → EStateM ε σ β} {h : α → EStateM ε τ β}
    (hxy : Erases f x y) (hgh : ∀ a, Erases f (g a) (h a)) : Erases f (x >>= g) (y >>= h) := by
  intro s
  rw [EStateM.run_bind, EStateM.run_bind, ← hxy s]
  cases x.run s with
  | ok a t => exact hgh a t
  | error e t => rfl

/-- What follows reads the part of the state. -/
theorem get_bind {g : σ → EStateM ε σ β} {h : τ → EStateM ε τ β} (hgh : ∀ s, Erases f (g s) (h (f s))) :
    Erases f (MonadState.get >>= g) (MonadState.get >>= h) := fun s => hgh s s

theorem exists_ok {x : EStateM ε σ α} {y : EStateM ε τ α} (h : Erases f x y) {s : σ} {a : α} {t : τ}
    (hy : y.run (f s) = .ok a t) : ∃ s', x.run s = .ok a s' ∧ f s' = t := by
  have hrun := h s
  rw [hy] at hrun
  cases hx : x.run s with
  | ok a' s' =>
    rw [hx] at hrun
    cases hrun
    exact ⟨s', rfl, rfl⟩
  | error e s' =>
    rw [hx] at hrun
    cases hrun

end Erases

namespace Newton

/-! ### Counting -/

/-- How often linearisation and preconditioner were asked for. -/
structure Calls where
  gradient : ℕ
  preconditioner : ℕ

def Calls.gradientOnce (c : Calls) : Calls := { c with gradient := c.gradient + 1 }

def Calls.preconditionerOnce (c : Calls) : Calls := { c with preconditioner := c.preconditioner + 1 }

/-- An action beside which calls are counted. -/
def counted (count : Calls → Calls) (act : EStateM ε σ α) : EStateM ε (Calls × σ) α :=
  fun s => mapState (fun t => (count s.1, t)) (act.run s.2)

/-- The system that counts the calls of linearisation and preconditioner. -/
def System.counting {n : ℕ} (sys : System ℝ n σ) : System ℝ n (Calls × σ) where
  residual x := counted id (sys.residual x)
  gradient x := counted Calls.gradientOnce (sys.gradient x)
  precondition := sys.precondition.map fun build J => counted Calls.preconditionerOnce (build J)

variable {n : ℕ} {settings : Settings ℝ} {linear : LinearSolver ℝ n} {sys : System ℝ n σ} {b : Option (Vec ℝ n)}

theorem run_onSystem (act : EStateM (Failure ℝ) σ α) (st : State ℝ n σ) :
    (onSystem act : Action ℝ n σ α).run st = mapState (fun inner => { st with inner }) (act.run st.inner) := by
  show onSystem act st = _
  unfold onSystem
  cases act.run st.inner with
  | ok a s => rfl
  | error e s => rfl

theorem onSystem_bind (x : EStateM (Failure ℝ) σ α) (f : α → EStateM (Failure ℝ) σ β) :
    (onSystem (x >>= f) : Action ℝ n σ β) = onSystem x >>= fun a => onSystem (f a) := by
  funext st
  show EStateM.run (onSystem (x >>= f)) st = EStateM.run _ st
  rw [EStateM.run_bind, run_onSystem, run_onSystem, EStateM.run_bind]
  cases x.run st.inner with
  | ok a s => exact (run_onSystem (f a) { st with inner := s }).symm
  | error e s => rfl

theorem counted_eq_ok {count : Calls → Calls} {act : EStateM ε σ α} {a : α} {s s' : Calls × σ} :
    (counted count act).run s = .ok a s' ↔ act.run s.2 = .ok a s'.2 ∧ s'.1 = count s.1 := by
  show mapState _ (act.run s.2) = _ ↔ _
  cases act.run s.2 with
  | ok a' t =>
    constructor
    · rintro ⟨⟩
      exact ⟨rfl, rfl⟩
    · rintro ⟨⟨⟩, hcalls⟩
      exact congrArg (EStateM.Result.ok a) (Prod.ext hcalls.symm rfl)
  | error e t => exact ⟨nofun, nofun⟩

theorem erases_counted (count : Calls → Calls) (act : EStateM ε σ α) : Erases Prod.snd (counted count act) act := by
  intro s
  show mapState _ (mapState _ (act.run s.2)) = _
  cases act.run s.2 with
  | ok a t => rfl
  | error e t => rfl

theorem precondition_counting_of_none (h : sys.precondition = none) : sys.counting.precondition = none := by
  unfold System.counting
  rw [h]
  rfl

theorem precondition_counting_of_some {build : Sparse ℝ n n → EStateM (Failure ℝ) σ (Krylov.Preconditioner ℝ n)}
    (h : sys.precondition = some build) :
    sys.counting.precondition = some fun J => counted Calls.preconditionerOnce (build J) := by
  unfold System.counting
  rw [h]
  rfl

/-- The state of an iteration without the calls that were counted. -/
def State.uncounted (st : State ℝ n (Calls × σ)) : State ℝ n σ := ⟨st.x, st.progress, st.inner.2⟩

theorem erases_onSystem {act : EStateM (Failure ℝ) (Calls × σ) α} {act' : EStateM (Failure ℝ) σ α}
    (h : Erases Prod.snd act act') :
    Erases State.uncounted (onSystem act : Action ℝ n (Calls × σ) α) (onSystem act') := by
  intro st
  rw [run_onSystem, run_onSystem, show act'.run st.uncounted.inner = _ from (h st.inner).symm]
  cases act.run st.inner with
  | ok a s => rfl
  | error e s => rfl

theorem erases_report (event : Event ℝ) :
    Erases State.uncounted (report event : Action ℝ n (Calls × σ) Unit) (report event) := .modify fun _ => rfl

theorem erases_residualLess : Erases State.uncounted (residualLess sys.counting b) (residualLess sys b) := by
  refine .get_bind fun st => .bind (erases_onSystem (erases_counted _ _)) fun r => ?_
  cases b with
  | none => exact .pure _
  | some b => exact .pure _

theorem erases_measure : Erases State.uncounted (measure settings sys.counting b) (measure settings sys b) := by
  refine .bind erases_residualLess fun r => .bind (.modify fun _ => rfl) fun _ => ?_
  exact .bind (.bind (.ofExcept _) fun _ => .pure _) fun _ =>
    .get_bind fun st => .bind (erases_report _) fun _ => .pure _

theorem erases_dampedStep (J : Sparse ℝ n n) (P : Krylov.Preconditioner ℝ n) (r : Vec ℝ n) :
    Erases State.uncounted (dampedStep settings linear J P r : Action ℝ n (Calls × σ) Unit)
      (dampedStep settings linear J P r) := by
  refine .bind (.ofExcept _) fun answer => ?_
  dsimp only
  split
  · exact .throw_bind _ _ _
  · split
    · exact .get_bind fun st => .bind (erases_report _) fun _ => .bind (.ofExcept _) fun alpha => .modify fun _ => rfl
    · exact .bind (.ofExcept _) fun alpha => .modify fun _ => rfl

theorem erases_advance (r : Vec ℝ n) :
    Erases State.uncounted (advance settings linear sys.counting r) (advance settings linear sys r) := by
  rw [advance_eq, advance_eq]
  refine .get_bind fun st => .bind (erases_onSystem (erases_counted _ _)) fun J => ?_
  cases hprecondition : sys.precondition with
  | none =>
    rw [precondition_counting_of_none hprecondition]
    exact .bind (.pure _) fun P => erases_dampedStep J P r
  | some build =>
    rw [precondition_counting_of_some hprecondition]
    exact .bind (erases_onSystem (erases_counted _ _)) fun P => erases_dampedStep J P r

theorem erases_iterate (steps : ℕ) (first? : Option ℝ) :
    Erases State.uncounted (iterate settings linear sys.counting b steps first?)
      (iterate settings linear sys b steps first?) := by
  induction steps generalizing first? with
  | zero =>
    unfold iterate
    refine .bind erases_measure fun p => .bind (.ofExcept _) fun bound => ?_
    dsimp only
    split
    · exact .bind (.modify fun _ => rfl) fun _ => .get_bind fun st => erases_report _
    · exact .bind (.bind (.ofExcept _) fun _ => .pure _) fun _ => .get_bind fun st => erases_report _
  | succ steps ih =>
    unfold iterate
    refine .bind erases_measure fun p => .bind (.ofExcept _) fun bound => ?_
    dsimp only
    split
    · exact .bind (.modify fun _ => rfl) fun _ => .get_bind fun st => erases_report _
    · exact .bind (erases_advance _) fun _ => ih _

/-- Counting changes nothing about a solve. -/
theorem erases_solve : Erases State.uncounted (solve settings linear sys.counting b) (solve settings linear sys b) :=
  .bind (.modify fun _ => rfl) fun _ => erases_iterate _ _

/-! ### What was counted -/

/-- Each step has asked once for the linearisation, and once for the preconditioner if there is one. -/
structure State.Counted (sys : System ℝ n σ) (st : State ℝ n (Calls × σ)) : Prop where
  gradient : st.inner.1.gradient = st.progress.iterations
  preconditioner : st.inner.1.preconditioner = if sys.precondition.isSome then st.progress.iterations else 0

theorem keeps_onSystem_counted (act : EStateM (Failure ℝ) σ α) :
    Keeps (State.Counted sys) (onSystem (counted id act) : Action ℝ n (Calls × σ) α) := by
  intro st hst
  unfold stateAfter
  rw [run_onSystem,
    show (counted id act).run st.inner = mapState (fun t => (st.inner.1, t)) (act.run st.inner.2) from rfl]
  cases act.run st.inner.2 with
  | ok a t => exact ⟨hst.gradient, hst.preconditioner⟩
  | error e t => exact ⟨hst.gradient, hst.preconditioner⟩

theorem keeps_counted_report (event : Event ℝ) :
    Keeps (State.Counted sys) (report event : Action ℝ n (Calls × σ) Unit) :=
  .modify fun _ h => ⟨h.gradient, h.preconditioner⟩

theorem keeps_counted_measure : Keeps (State.Counted sys) (measure settings sys.counting b) := by
  have hless : Keeps (State.Counted sys) (residualLess sys.counting b) := by
    refine .bind .get fun st => .bind (keeps_onSystem_counted _) fun r => ?_
    cases b with
    | none => exact .pure _
    | some b => exact .pure _
  refine .bind hless fun r => .bind (.modify fun _ h => ⟨h.gradient, h.preconditioner⟩) fun _ => ?_
  exact .bind (.bind (.ofExcept _) fun _ => .pure _) fun _ => .bind .get fun st =>
    .bind (keeps_counted_report _) fun _ => .pure _

theorem keepsIfOk_advance (r : Vec ℝ n) : KeepsIfOk (State.Counted sys) (advance settings linear sys.counting r) := by
  intro st u st' hst h
  rw [advance_eq, run_get_bind] at h
  obtain ⟨J, _, hgradient, h⟩ := run_bind_eq_ok.1 h
  obtain ⟨inner, hJ, rfl⟩ := onSystem_eq_ok.1 hgradient
  obtain ⟨-, hcalls⟩ := counted_eq_ok.1 hJ
  cases hprecondition : sys.precondition with
  | none =>
    rw [precondition_counting_of_none hprecondition] at h
    obtain ⟨_, -, hmoved, hinner⟩ := dampedStep_ok h
    constructor
    · rw [hinner, hmoved.iterations, hcalls]
      exact congrArg (· + 1) hst.gradient
    · have hnone := hst.preconditioner
      rw [hprecondition] at hnone ⊢
      rw [hinner, hcalls]
      exact hnone
  | some build =>
    rw [precondition_counting_of_some hprecondition] at h
    obtain ⟨P, _, hbuild, h⟩ := run_bind_eq_ok.1 h
    obtain ⟨inner', hP, rfl⟩ := onSystem_eq_ok.1 hbuild
    obtain ⟨-, hcalls'⟩ := counted_eq_ok.1 hP
    obtain ⟨_, -, hmoved, hinner⟩ := dampedStep_ok h
    have hboth : st'.inner.1 = st.inner.1.gradientOnce.preconditionerOnce := by
      rw [hinner]
      exact hcalls'.trans (congrArg _ hcalls)
    constructor
    · rw [hboth, hmoved.iterations]
      exact congrArg (· + 1) hst.gradient
    · have hsome := hst.preconditioner
      rw [hprecondition] at hsome ⊢
      rw [hboth, hmoved.iterations]
      exact congrArg (· + 1) hsome

theorem keepsIfOk_iterate (steps : ℕ) (first? : Option ℝ) :
    KeepsIfOk (State.Counted sys) (iterate settings linear sys.counting b steps first?) := by
  have hend : ∀ event : ℕ → Event ℝ, Keeps (State.Counted sys)
      (do report (event (← get).progress.iterations) : Action ℝ n (Calls × σ) Unit) :=
    fun _ => .bind .get fun _ => keeps_counted_report _
  induction steps generalizing first? with
  | zero =>
    unfold iterate
    refine .of_keeps (.bind keeps_counted_measure fun p => .bind (.ofExcept _) fun bound => ?_)
    dsimp only
    split
    · exact .bind (.modify fun _ h => ⟨h.gradient, h.preconditioner⟩) fun _ => hend (.converged · _)
    · exact .bind (.bind (.ofExcept _) fun _ => .pure _) fun _ => hend (.gaveUp · _)
  | succ steps ih =>
    unfold iterate
    refine .bind (.of_keeps keeps_counted_measure) fun p => .bind (.of_keeps (.ofExcept _)) fun bound => ?_
    dsimp only
    split
    · exact .of_keeps (.bind (.modify fun _ h => ⟨h.gradient, h.preconditioner⟩) fun _ => hend (.converged · _))
    · exact .bind (keepsIfOk_advance _) fun _ => ih _

/-- A solve that succeeds has asked for linearisation and preconditioner once in each of its steps. -/
theorem solve_counting {u : Unit} {x : Vec ℝ n} {p : Progress ℝ} {s : σ} {st : State ℝ n (Calls × σ)}
    (h : (solve settings linear sys.counting b).run ⟨x, p, ⟨0, 0⟩, s⟩ = .ok u st) : st.Counted sys := by
  unfold solve reset at h
  rw [run_modify_bind] at h
  exact keepsIfOk_iterate _ _ _ _ _ ⟨rfl, (ite_self 0).symm⟩ h

end Newton

end Magnetofluid
