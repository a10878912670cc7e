import Mathlib
import Magnetofluid.Proofs.Simulation.Assembly

/-!
# What a run keeps

Whatever steps a simulation takes, by whatever method, it is never moved on the essential nodes and never leaves the
constraint.

* `Simulation.Reached`: the simulations that steps lead to.
* `Simulation.Reached.sane`: an admissible simulation only leads to admissible ones.
* `Simulation.Reached.fixed_and_constrained`: what holds of each simulation that a configuration leads to.
-/

namespace Magnetofluid

namespace Simulation

variable {m : Mesh ℝ}

def withSolves (sim : Simulation m) (solves : Solves m.nodes) : Simulation m :=
  { sim with model := sim.model.withSolves solves }

/-- The simulations that a simulation leads to when it is started and steps are taken and recorded. -/
inductive Reached (begun : Simulation m) : Simulation m → Prop
  | begun : Reached begun begun
  | start {sim sim' : Simulation m} : Reached begun sim → start.run sim = .ok ⟨⟩ sim' → Reached begun sim'
  | update {sim sim' : Simulation m} : Reached begun sim → update.run sim = .ok ⟨⟩ sim' → Reached begun sim'
  | postUpdate {sim sim' : Simulation m} : Reached begun sim → postUpdate.run sim = .ok ⟨⟩ sim' → Reached begun sim'

/-! ### Steps -/

theorem evolve_eq_ok {K α : Type} [RealText K] {m : Mesh K} {act : Model K m.nodes → Evolving K m.nodes α}
    {s t : Simulation m} {a : α} :
    (evolve act).run s = .ok a t ↔
      ∃ e, (act s.model).run s.evolution = .ok a e ∧ t = { s with evolution := e }.tellNewton := by
  show evolve act s = _ ↔ _
  unfold evolve
  cases (act s.model).run s.evolution with
  | ok b e => simp [eq_comm]
  | error f e => simp

/-- A simulation has a model, and a state that is admissible for it. -/
structure Sane (model : Model ℝ m.nodes) (psi₀ j₀ : Vec ℝ m.nodes) (sim : Simulation m) : Prop where
  model_eq : sim.model = model
  admissible : sim.evolution.Admissible model psi₀ j₀

section Steps

variable {model : Model ℝ m.nodes} {psi₀ j₀ : Vec ℝ m.nodes}

theorem ofSystem_sane : OfSystem (Sane model psi₀ j₀) := by
  intro s t hmodel hevolution hs
  refine ⟨hmodel.trans hs.model_eq, ?_⟩
  rw [hevolution]
  exact hs.admissible

/-- The lines that Newton's method tells leave an admissible state as it is. -/
theorem keepsIfOk_evolve {α : Type} {act : Model ℝ m.nodes → Evolving ℝ m.nodes α}
    (hact : KeepsIfOk (Evolution.Admissible model psi₀ j₀) (act model)) :
    KeepsIfOk (Sane model psi₀ j₀) (evolve act) := by
  intro s a t hs h
  obtain ⟨e, hrun, rfl⟩ := evolve_eq_ok.1 h
  rw [hs.model_eq] at hrun
  obtain ⟨hphi, hpsi, hw, hcurrent, hconstraint⟩ := hact _ _ _ hs.admissible hrun
  exact ⟨hs.model_eq, ⟨hphi, hpsi, hw, hcurrent, hconstraint⟩⟩

theorem keeps_start : Keeps (Sane model psi₀ j₀) start :=
  .bind (keeps_modify ofSystem_sane (fun _ => rfl) fun _ => rfl) fun _ =>
    .bind (keeps_setting _) fun _ => keeps_modify ofSystem_sane (fun _ => rfl) fun _ => rfl

variable (hsolves : model.SoundSolves) (hmass : model.massSystem = model.mass.eliminate model.ess)
  (hstiffness : model.stiffnessSystem = model.stiffness.eliminate model.ess)
include hsolves hmass

theorem keepsIfOk_postUpdate : KeepsIfOk (Sane model psi₀ j₀) postUpdate := by
  refine .bind (.of_keeps .get) fun s => .bind ?_ fun _ => .of_keeps (.bind .get fun s => ?_)
  · intro s u t hs h
    obtain ⟨j, h⟩ := run_discard_eq_ok.1 h
    refine keepsIfOk_evolve (fun e a e' he hcurrent => ?_) s j t hs h
    obtain ⟨mem, hrecover, rfl⟩ := Evolution.evaluate_eq_ok.1 hcurrent
    obtain ⟨hj, r, rfl⟩ := Model.recoverCurrent_ok hsolves.mass hmass hrecover
    exact { he with current := fun i hi => (hj.1 i hi).trans (he.current i hi) }
  -- what is left only counts and records the step
  · split
    · refine .bind (keeps_modify ofSystem_sane (fun _ => rfl) fun _ => rfl) fun _ => ?_
      split
      · exact .bind (.ofExcept _) fun _ _ ht => ⟨ht.model_eq, ht.admissible⟩
      · exact .throw _
    · exact .throw _

include hstiffness

theorem keepsIfOk_update : KeepsIfOk (Sane model psi₀ j₀) update := by
  refine .bind (.of_keeps keeps_course) fun c => .bind (.of_keeps (keeps_setting _)) fun integration =>
    .bind (.of_keeps (.ofExcept _)) fun dt => .bind (keepsIfOk_evolve fun e u e' he h => ?_) fun _ => .of_keeps ?_
  · exact Evolution.takeStep_admissible hsolves hmass hstiffness he h
  · split
    · exact .bind .get fun _ => keeps_modify ofSystem_sane (fun _ => rfl) fun _ => rfl
    · exact .pure _

/-- An admissible simulation only leads to admissible ones. -/
theorem Reached.sane {begun sim : Simulation m} (hreached : Reached begun sim) (hbegun : begun.Sane model psi₀ j₀) :
    sim.Sane model psi₀ j₀ := by
  induction hreached with
  | begun => exact hbegun
  | start _ h ih => exact KeepsIfOk.of_keeps keeps_start _ _ _ ih h
  | update _ h ih => exact keepsIfOk_update hsolves hmass hstiffness _ _ _ ih h
  | postUpdate _ h ih => exact keepsIfOk_postUpdate hsolves hmass _ _ _ ih h

end Steps

/-! ### Runs -/

theorem AtRest.constrained {sim : Simulation m} (h : AtRest sim) : sim.model.Constrained sim.state := by
  intro i _
  rw [h.phi, h.w, Vec.values_add, Sparse.values_mulVec, Sparse.values_mulVec, Vec.values_zeros, Matrix.mulVec_zero,
    Matrix.mulVec_zero, add_zero]
  rfl

/-- **Runs stay on the constraint.**  In a run of the simulation of a configuration whose solves only answer with
solutions, stream function and vorticity vanish on the essential nodes, flux and current are there what they were at
first, and the constraint holds off them. -/
theorem Reached.fixed_and_constrained {s : RawSections ℝ} {workspace workspace' : Workspace ℝ}
    {begun sim : Simulation m} (hbegun : (ofSections s).run workspace = .ok ⟨m, begun⟩ workspace')
    {solves : Solves m.nodes} (hsolves : (begun.model.withSolves solves).SoundSolves)
    (hreached : Reached (begun.withSolves solves) sim) :
    (∀ i ∈ begun.model.ess, sim.state.phi.values i = 0 ∧ sim.state.w.values i = 0 ∧
      sim.state.psi.values i = begun.state.psi.values i ∧ sim.current.values i = begun.current.values i) ∧
      begun.model.Constrained sim.state := by
  have hrest := ofSections_atRest hbegun
  obtain ⟨ess, viscosity, resistivity, hops⟩ := hrest.operators
  have hmass := Operators.massSystem_eq hops
  have hstiffness := Operators.stiffnessSystem_eq hops
  have hsane : (begun.withSolves solves).Sane (begun.model.withSolves solves) begun.state.psi begun.current := by
    refine ⟨rfl, fun i _ => ?_, fun i _ => rfl, fun i _ => ?_, fun i _ => rfl, hrest.constrained⟩
    · show begun.state.phi.values i = 0
      rw [hrest.phi, Vec.values_zeros, Pi.zero_apply]
    · show begun.state.w.values i = 0
      rw [hrest.w, Vec.values_zeros, Pi.zero_apply]
  obtain ⟨-, hphi, hpsi, hw, hcurrent, hconstraint⟩ := hreached.sane hsolves hmass hstiffness hsane
  exact ⟨fun i hi => ⟨hphi i hi, hw i hi, hpsi i hi, hcurrent i hi⟩, hconstraint⟩

/-- The sheet is started and taken through a step. -/
theorem fixed_and_constrained_sheet : ∃ (begun sim sim' : Simulation Mesh.unitSquare) (workspace : Workspace ℝ),
    (ofSections sheet).run morning = .ok ⟨Mesh.unitSquare, begun⟩ workspace ∧
      start.run (begun.withSolves (.direct begun.model.toOperators)) = .ok ⟨⟩ sim ∧ update.run sim = .ok ⟨⟩ sim' ∧
      (∃ i, i ∈ begun.model.ess ∧ sim'.state.psi.values i = begun.state.psi.values i) ∧
      begun.model.Constrained sim'.state := by
  obtain ⟨begun, workspace, hbegun, hsections, ⟨i, hi⟩, hsolvable, hmultigrid⟩ := exists_ofSections_sheet
  obtain ⟨ess, viscosity, resistivity, hops⟩ := (ofSections_atRest hbegun).operators
  have hess : ∃ k, k ∈ ess := ⟨i, by rwa [hops] at hi⟩
  have hexact := Model.withSolves_direct_exactSolves Mesh.unitSquare_proper hess hops
  have hsound := Model.withSolves_direct_soundSolves Mesh.unitSquare_proper hess hops
  have hsystem := Operators.massSystem_eq hops
  let opened := begun.withSolves (.direct begun.model.toOperators)
  let started : Simulation Mesh.unitSquare := { opened with progress := some ⟨0, 0, some ⟨.int 1, 0, #[]⟩⟩ }
  have hdt : begun.schedule.dt = .ok (.int 1) := by
    unfold schedule
    rw [hsections]
    rfl
  have hintegration : begun.schedule.integration = .ok .euler := by
    unfold schedule
    rw [hsections]
    rfl
  have hstart : start.run opened = .ok ⟨⟩ started :=
    run_bind_eq_ok.2 ⟨⟨⟩, _, run_modify_eq_ok.2 rfl, run_bind_eq_ok.2
      ⟨.int 1, _, setting_eq_ok.2 ⟨hdt, rfl⟩, run_modify_eq_ok.2 rfl⟩⟩
  obtain ⟨e, he⟩ := Evolution.exists_takeStep_euler (e := begun.evolution) hexact hsystem hsolvable
    (hmultigrid.trans (Option.isSome_map).symm) (.int 1)
  have hupdate : update.run started = .ok ⟨⟩ { started with evolution := e }.tellNewton :=
    run_bind_eq_ok.2 ⟨_, started, rfl, run_bind_eq_ok.2 ⟨.euler, started, setting_eq_ok.2 ⟨hintegration, rfl⟩,
      run_bind_eq_ok.2 ⟨.int 1, started, rfl, run_bind_eq_ok.2 ⟨⟨⟩, _, evolve_eq_ok.2 ⟨e, he, rfl⟩, rfl⟩⟩⟩⟩
  obtain ⟨hfixed, hconstraint⟩ := Reached.fixed_and_constrained hbegun hsound (.update (.start .begun hstart) hupdate)
  exact ⟨begun, _, _, workspace, hbegun, hstart, hupdate, ⟨i, hi, (hfixed i hi).2.2.1⟩, hconstraint⟩

end Simulation

end Magnetofluid
