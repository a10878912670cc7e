import Mathlib
import Magnetofluid.Proofs.Model.Gradient
import Magnetofluid.Simulation.Evolution

/-!
# What a step in time keeps

No way of taking a step moves a state on the essential nodes or takes it off the constraint.

* `Evolution.Admissible`: stream function and vorticity vanish on the essential nodes, flux and current are there what
  they were at first, and the constraint holds off them.
* `Evolution.takeStep_admissible`: a step by any of the methods keeps this.
-/

namespace Magnetofluid.Evolution

variable {n : ℕ}

/-- A state on its way is tied to the values `psi₀` and `j₀` on the essential nodes and obeys the constraint. -/
structure Admissible (model : Model ℝ n) (psi₀ j₀ : Vec ℝ n) (e : Evolution ℝ n) : Prop where
  phi : model.ess.ZeroOn e.state.phi.values
  psi : ∀ i ∈ model.ess, e.state.psi.values i = psi₀.values i
  w : model.ess.ZeroOn e.state.w.values
  current : ∀ i ∈ model.ess, e.memory.current.values i = j₀.values i
  constraint : model.Constrained e.state

/-! ### Actions on the state -/

variable {model : Model ℝ n} {psi₀ j₀ : Vec ℝ n} {e e' : Evolution ℝ n}

theorem evaluate_eq_ok {K α : Type} {act : Action K n α} {a : α} {e e' : Evolution K n} :
    (evaluate act).run e = .ok a e' ↔ ∃ mem, act.run e.memory = .ok a mem ∧ e' = ⟨e.state, mem⟩ := by
  show evaluate act e = _ ↔ _
  unfold evaluate
  cases act.run e.memory with
  | ok b mem => simp [eq_comm]
  | error f mem => simp

theorem evaluate_eq_error {K α : Type} {act : Action K n α} {f : Failure K} {e e' : Evolution K n} :
    (evaluate act).run e = .error f e' ↔ ∃ mem, act.run e.memory = .error f mem ∧ e' = ⟨e.state, mem⟩ := by
  show evaluate act e = _ ↔ _
  unfold evaluate
  cases act.run e.memory with
  | ok b mem => simp
  | error f mem => simp [eq_comm]

theorem state_of_evaluate_error {K α : Type} {act : Action K n α} {f : Failure K} {e e' : Evolution K n}
    (h : (evaluate act).run e = .error f e') : e'.state = e.state := by
  obtain ⟨mem, -, rfl⟩ := evaluate_eq_error.1 h
  rfl

theorem advance_eq_ok {K : Type} [Scalar K] {dt : K} {rate : State K n} {u : Unit} {e e' : Evolution K n} :
    (advance dt rate).run e = .ok u e' ↔ e' = ⟨e.state.advance dt rate, e.memory⟩ :=
  run_modify_eq_ok.trans eq_comm

theorem ofExcept_usable_eq_ok {dt : Number ℝ} {c : ℝ} :
    (MonadExcept.ofExcept dt.usable : Evolving ℝ n ℝ).run e = .ok c e' ↔ dt.toScalar = c ∧ e = e' := by
  rw [run_ofExcept_eq_ok, Number.usable_real, Except.ok.injEq]

/-! ### Rates -/

theorem values_advance (x k : State ℝ n) (dt : ℝ) (b : Block) :
    ((x.advance dt k).block b).values = (x.block b).values + dt • (k.block b).values := by
  cases b <;> exact (Vec.values_add _ _).trans (congrArg _ (Vec.values_scale _ _))

/-- The rate of a step leads from its start to its end. -/
theorem advance_stepRate {dt : Number ℝ} (hdt : 0 < dt.toScalar) (x y : State ℝ n) :
    x.advance dt.toScalar (Model.stepRate dt x y) = y := by
  have hblock : ∀ a b : Vec ℝ n, a + Vec.scale dt.toScalar (Step.rate ⟨dt, x⟩ a b) = b := by
    intro a b
    refine Vec.values_injective ?_
    rw [Vec.values_add, Vec.values_scale, Step.values_rate, smul_smul, mul_inv_cancel₀ hdt.ne', one_smul,
      add_sub_cancel]
  show State.mk _ _ _ = y
  unfold Model.stepRate
  rw [hblock, hblock, hblock]

/-! ### Steps -/

section Steps

variable (hsolves : model.SoundSolves) (hmass : model.massSystem = model.mass.eliminate model.ess)
  (hstiffness : model.stiffnessSystem = model.stiffness.eliminate model.ess)
include hsolves hstiffness

/-- A state is admissible once its stream function was recovered. -/
theorem recoverPotential_admissible {u : Unit} (hpsi : ∀ i ∈ model.ess, e.state.psi.values i = psi₀.values i)
    (hw : model.ess.ZeroOn e.state.w.values) (hcurrent : ∀ i ∈ model.ess, e.memory.current.values i = j₀.values i)
    (h : (recoverPotential model).run e = .ok u e') : Admissible model psi₀ j₀ e' := by
  unfold recoverPotential at h
  rw [run_get_bind] at h
  obtain ⟨phi, _, hevaluate, hput⟩ := run_bind_eq_ok.1 h
  obtain ⟨mem, hphi, rfl⟩ := evaluate_eq_ok.1 hevaluate
  obtain ⟨hload, rfl⟩ := Model.potential_ok hsolves.stiffness hphi
  obtain rfl := run_modify_eq_ok.1 hput
  exact ⟨Model.potential_zeroOn hstiffness hload, hpsi, hw, hcurrent,
    Model.potential_constrained (x := { e.state with phi }) hload⟩

include hmass

/-- The last part of an explicit step from `x`, along the rate `k`. -/
theorem advance_recoverPotential_admissible {u : Unit} {dt : ℝ} {k : State ℝ n}
    (hpsi : ∀ i ∈ model.ess, e.state.psi.values i = psi₀.values i) (hw : model.ess.ZeroOn e.state.w.values)
    (hcurrent : ∀ i ∈ model.ess, e.memory.current.values i = j₀.values i)
    {forcing : Option (Vec ℝ n)} {x : State ℝ n} {j : Vec ℝ n} (hk : model.IsRate forcing x j k)
    (h : (advance dt k >>= fun _ => recoverPotential model).run e = .ok u e') : Admissible model psi₀ j₀ e' := by
  obtain ⟨_, _, hadvance, hrecover⟩ := run_bind_eq_ok.1 h
  obtain rfl := advance_eq_ok.1 hadvance
  refine recoverPotential_admissible (e := ⟨e.state.advance dt k, e.memory⟩) hsolves hstiffness (fun i hi => ?_)
    (fun i hi => ?_) hcurrent hrecover
  · refine (congrFun (values_advance e.state k dt .flux) i).trans ?_
    rw [Pi.add_apply, Pi.smul_apply, Model.isRate_zeroOn hmass hk .flux i hi, smul_zero, add_zero]
    exact hpsi i hi
  · refine (congrFun (values_advance e.state k dt .vorticity) i).trans ?_
    rw [Pi.add_apply, Pi.smul_apply, Model.isRate_zeroOn hmass hk .vorticity i hi, smul_zero, add_zero]
    exact hw i hi

/-- A step by any of the methods leads from an admissible state to another one. -/
theorem takeStep_admissible {integration : Integration} {dt : Number ℝ} {u : Unit} (he : Admissible model psi₀ j₀ e)
    (h : (takeStep model integration dt).run e = .ok u e') : Admissible model psi₀ j₀ e' := by
  unfold takeStep at h
  rw [run_get_bind] at h
  cases integration with
  | implicit =>
    obtain ⟨k, _, hevaluate, h⟩ := run_bind_eq_ok.1 h
    obtain ⟨mem, hk, rfl⟩ := evaluate_eq_ok.1 hevaluate
    obtain ⟨c, _, hc, hadvance⟩ := run_bind_eq_ok.1 h
    obtain ⟨rfl, rfl⟩ := ofExcept_usable_eq_ok.1 hc
    obtain rfl := advance_eq_ok.1 hadvance
    obtain ⟨hdt, y, rfl, hessential, hconstraint, hcurrent⟩ := Model.implicitRate_ok hsolves hmass he.constraint hk
    rw [advance_stepRate hdt]
    exact ⟨fun i hi => (hessential .potential i hi).trans (he.phi i hi),
      fun i hi => (hessential .flux i hi).trans (he.psi i hi),
      fun i hi => (hessential .vorticity i hi).trans (he.w i hi),
      fun i hi => (congrArg (·.values i) hcurrent).trans (he.current i hi), hconstraint⟩
  | euler =>
    obtain ⟨k, _, hevaluate, h⟩ := run_bind_eq_ok.1 h
    obtain ⟨mem, hk, rfl⟩ := evaluate_eq_ok.1 hevaluate
    obtain ⟨c, _, hc, h⟩ := run_bind_eq_ok.1 h
    obtain ⟨rfl, rfl⟩ := ofExcept_usable_eq_ok.1 hc
    obtain ⟨hj, hrate, -⟩ := Model.rate_ok hsolves.mass hmass hk
    exact advance_recoverPotential_admissible (e := ⟨e.state, mem⟩) hsolves hmass hstiffness he.psi he.w
      (fun i hi => (hj.1 i hi).trans (he.current i hi)) hrate h
  | midpoint =>
    -- the state half way gives the rate and is not kept
    obtain ⟨k, _, hevaluate, h⟩ := run_bind_eq_ok.1 h
    obtain ⟨mem, hk, rfl⟩ := evaluate_eq_ok.1 hevaluate
    obtain ⟨c, _, hc, h⟩ := run_bind_eq_ok.1 h
    obtain ⟨rfl, rfl⟩ := ofExcept_usable_eq_ok.1 hc
    obtain ⟨phi, _, hevaluate', h⟩ := run_bind_eq_ok.1 h
    obtain ⟨mem', hphi, rfl⟩ := evaluate_eq_ok.1 hevaluate'
    obtain ⟨k', _, hevaluate'', h⟩ := run_bind_eq_ok.1 h
    obtain ⟨mem'', hk', rfl⟩ := evaluate_eq_ok.1 hevaluate''
    obtain ⟨-, rfl⟩ := Model.potential_ok hsolves.stiffness hphi
    obtain ⟨hj, -⟩ := Model.rate_ok hsolves.mass hmass hk
    obtain ⟨hj', hrate', -⟩ := Model.rate_ok hsolves.mass hmass hk'
    exact advance_recoverPotential_admissible (e := ⟨e.state, mem''⟩) hsolves hmass hstiffness he.psi he.w
      (fun i hi => (hj'.1 i hi).trans ((hj.1 i hi).trans (he.current i hi))) hrate' h

end Steps

/-- A step by Euler's method succeeds if the solves have answers. -/
theorem exists_takeStep_euler (hsolves : model.ExactSolves) (hmass : model.massSystem = model.mass.eliminate model.ess)
    (hsolvable : e.memory.solvable = true) (hmultigrid : e.memory.multigrid = model.multigridSolve.isSome)
    (dt : Number ℝ) : ∃ e', (takeStep model .euler dt).run e = .ok ⟨⟩ e' := by
  obtain ⟨k, mem, hk⟩ := Model.exists_rate hsolves.mass hsolvable e.state
  obtain ⟨-, -, -, -, hsolvable', hmultigrid'⟩ := Model.rate_ok hsolves.mass.sound hmass hk
  obtain ⟨phi, hphi⟩ := Model.exists_potential hsolves.stiffness (hsolvable'.trans hsolvable)
    (hmultigrid'.trans hmultigrid) (e.state.advance dt.toScalar k)
  unfold takeStep recoverPotential
  refine ⟨⟨{ e.state.advance dt.toScalar k with phi }, mem⟩, ?_⟩
  rw [run_get_bind]
  refine run_bind_eq_ok.2 ⟨k, ⟨e.state, mem⟩, evaluate_eq_ok.2 ⟨mem, hk, rfl⟩, run_bind_eq_ok.2
    ⟨dt.toScalar, _, ofExcept_usable_eq_ok.2 ⟨rfl, rfl⟩, run_bind_eq_ok.2 ⟨⟨⟩, _, advance_eq_ok.2 rfl, ?_⟩⟩⟩
  rw [run_get_bind]
  exact run_bind_eq_ok.2 ⟨phi, _, evaluate_eq_ok.2 ⟨mem, hphi, rfl⟩, run_modify_eq_ok.2 rfl⟩

/-- A step by Euler's method leaves the solves there. -/
theorem takeStep_euler_memory (hsolves : model.ExactSolves) (hmass : model.massSystem = model.mass.eliminate model.ess)
    {dt : Number ℝ} {u : Unit} (h : (takeStep model .euler dt).run e = .ok u e') :
    e'.memory.solvable = e.memory.solvable ∧ e'.memory.multigrid = e.memory.multigrid := by
  unfold takeStep recoverPotential at h
  rw [run_get_bind] at h
  obtain ⟨k, _, hevaluate, h⟩ := run_bind_eq_ok.1 h
  obtain ⟨mem, hk, rfl⟩ := evaluate_eq_ok.1 hevaluate
  obtain ⟨-, -, -, -, hsolvable, hmultigrid⟩ := Model.rate_ok hsolves.mass.sound hmass hk
  obtain ⟨c, _, hc, h⟩ := run_bind_eq_ok.1 h
  obtain ⟨rfl, rfl⟩ := ofExcept_usable_eq_ok.1 hc
  obtain ⟨_, _, hadvance, h⟩ := run_bind_eq_ok.1 h
  obtain rfl := advance_eq_ok.1 hadvance
  rw [run_get_bind] at h
  obtain ⟨phi, _, hevaluate, h⟩ := run_bind_eq_ok.1 h
  obtain ⟨mem', hphi, rfl⟩ := evaluate_eq_ok.1 hevaluate
  obtain ⟨-, rfl⟩ := Model.potential_ok (fun solve hsolve => (hsolves.stiffness solve hsolve).sound) hphi
  obtain rfl := run_modify_eq_ok.1 h
  exact ⟨hsolvable, hmultigrid⟩

end Magnetofluid.Evolution
