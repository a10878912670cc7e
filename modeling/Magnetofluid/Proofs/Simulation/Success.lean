import Mathlib
import Magnetofluid.Proofs.Simulation.Course

/-!
# Runs that succeed

Once a simulation was started only steps and output can fail.

* `Simulation.risky`: the deeds that can fail.
* `Simulation.exists_perform_plan`: a run succeeds if these do.
* `Simulation.Able.act`: a silent simulation whose solves have answers does by Euler's method what a run asks of it.
-/

namespace Magnetofluid

/-! ### Messages -/

theorem FailsOnly.exists_ok {ε σ α : Type} {act : EStateM ε σ α} (h : FailsOnly (fun _ => False) act) (s : σ) :
    ∃ a t, act.run s = .ok a t := by
  cases hrun : act.run s with
  | ok a t => exact ⟨a, t, rfl⟩
  | error e t => exact (h s e t hrun).elim

theorem Log.failsOnly_send {K : Type} {E : Failure K → Prop} (name : String) (severity : Severity) (message : String) :
    FailsOnly E (send name severity message : Work K Unit) := by
  refine .bind .get fun workspace => ?_
  dsimp only
  split
  · generalize reached _ = handlers
    induction handlers with
    | nil => exact .pure _
    | cons handler handlers ih =>
      refine .bind ?_ fun _ => ih
      cases handler with
      | console => exact .modify _
      | file place => exact .modify _
  · exact .pure _

namespace Simulation

section Risk

variable {K : Type} [RealText K] {m : Mesh K} {s t : Simulation m}

theorem failsOnly_tell {E : Failure K → Prop} (message : String) : FailsOnly E (tell message : Simulating m Unit) := by
  intro s e t h
  change within _ s = _ at h
  unfold within at h
  cases hsend : (Log.send loggerName .info message).run s.workspace with
  | ok u workspace =>
    rw [hsend] at h
    cases h
  | error e' workspace => exact (Log.failsOnly_send (E := fun _ => False) _ _ _ _ _ _ hsend).elim

theorem exists_tellSummary {k : ℤ} (hs : s.Stands k) (began : Moment) : ∃ t, (tellSummary began).run s = .ok ⟨⟩ t := by
  obtain ⟨time, c, hprogress⟩ := hs
  unfold tellSummary
  rw [run_bind_of_eq_ok (standing_run hprogress)]
  obtain ⟨_, t, ht⟩ := FailsOnly.exists_ok (.bind .get fun _ => .bind (failsOnly_tell _) fun _ =>
    .bind (failsOnly_tell _) fun _ => .bind (failsOnly_tell _) fun _ => failsOnly_tell _) s
  exact ⟨t, ht⟩

/-! ### What can fail -/

/-- The deeds that can fail once a simulation was started: to take a step, to record it, and to write and to save. -/
def risky : List Deed := [.update, .record, .header, .write, .save]

theorem exists_act {k : ℤ} {d : Deed} (hs : s.Stands k) (hstart : d ≠ .start) (hrisky : d ∉ risky) :
    ∃ t, d.act.run s = .ok ⟨⟩ t := by
  cases d with
  | start => exact absurd rfl hstart
  | update => exact absurd (by decide) hrisky
  | record => exact absurd (by decide) hrisky
  | header => exact absurd (by decide) hrisky
  | write => exact absurd (by decide) hrisky
  | save => exact absurd (by decide) hrisky
  | resume => exact ⟨_, rfl⟩
  | receive signal => exact ⟨_, receive_run signal s⟩
  | summary began => exact exists_tellSummary hs began
  | release => exact ⟨_, rfl⟩

theorem exists_perform {k : ℤ} {deeds : List Deed} (hs : s.Stands k) (hstart : .start ∉ deeds)
    (hrisky : ∀ before d after a, deeds = before ++ d :: after → d ∈ risky → (perform before).run s = .ok ⟨⟩ a →
      ∃ b, d.act.run a = .ok ⟨⟩ b) : ∃ t, (perform deeds).run s = .ok ⟨⟩ t := by
  induction deeds generalizing s k with
  | nil => exact ⟨s, rfl⟩
  | cons d deeds ih =>
    rw [List.mem_cons, not_or] at hstart
    obtain ⟨a, ha⟩ : ∃ a, d.act.run s = .ok ⟨⟩ a := by
      by_cases hd : d ∈ risky
      · exact hrisky [] d deeds s rfl hd rfl
      · exact exists_act hs (Ne.symm hstart.1) hd
    obtain ⟨t, ht⟩ := ih (hs.act (Ne.symm hstart.1) ha) hstart.2 fun before d' after b heq hd' hb => by
      refine hrisky (d :: before) d' after b (congrArg _ heq) hd' ?_
      rw [perform_cons, run_bind_of_eq_ok ha]
      exact hb
    rw [perform_cons, run_bind_of_eq_ok ha]
    exact ⟨t, ht⟩

/-- A run succeeds if its steps and its output do. -/
theorem exists_perform_plan {signals : ℕ → List Signal} {due : ℕ → Bool} {n : ℕ} {began : Moment} {v : Value K}
    (hdt : s.schedule.dt = .ok v)
    (hrisky : ∀ before d after a, plan signals due n began = before ++ d :: after → d ∈ risky →
      (perform before).run s = .ok ⟨⟩ a → ∃ b, d.act.run a = .ok ⟨⟩ b) :
    ∃ t, (perform (plan signals due n began)).run s = .ok ⟨⟩ t := by
  obtain ⟨rest, hplan, hstart, -⟩ := exists_plan_eq signals due n began
  have hstart' : .start ∉ rest ++ [.release] := by simpa using hstart
  rw [hplan] at hrisky ⊢
  rw [perform_start_cons hdt]
  refine exists_perform (started_stands s v) hstart' fun before d after a heq hd ha => ?_
  refine hrisky (.start :: before) d after a (congrArg _ heq) hd ?_
  rw [perform_start_cons hdt]
  exact ha

end Risk

/-! ### Silent runs by Euler's method -/

section Silence

variable {m : Mesh ℝ} {s : Simulation m}

theorem unlessSilent_run {act : Simulating m Unit} (hsilent : s.schedule.silent = .ok true) :
    (unlessSilent act).run s = .ok ⟨⟩ s := by
  unfold unlessSilent
  rw [run_bind_of_eq_ok (setting_eq_ok.2 ⟨hsilent, rfl⟩)]
  rfl

/-- A simulation that was started, with a model, sections and a size of step, whose solves are there. -/
structure Able (model : Model ℝ m.nodes) (sections : RawSections ℝ) (v : Value ℝ) (s : Simulation m) : Prop where
  model_eq : s.model = model
  sections_eq : s.sections = sections
  solvable : s.evolution.memory.solvable = true
  multigrid : s.evolution.memory.multigrid = model.multigridSolve.isSome
  progress : ∃ k time its history, s.progress = some ⟨k, time, some ⟨v, its, history⟩⟩

variable {model : Model ℝ m.nodes} {sections : RawSections ℝ} {v : Value ℝ} {dt : Number ℝ} {size : ℝ}
  (hsilent : sections.schedule.silent = .ok true) (heuler : sections.schedule.integration = .ok .euler)
  (hdt : v.toNumber = .ok dt) (hsize : v.toScalar = .ok size) (hsolves : model.ExactSolves)
  (hmass : model.massSystem = model.mass.eliminate model.ess)

include heuler hdt hsolves hmass in
theorem Able.update (hs : Able model sections v s) : ∃ t, update.run s = .ok ⟨⟩ t ∧ Able model sections v t := by
  obtain ⟨hmodel, hsections, hsolvable, hmultigrid, k, time, its, history, hprogress⟩ := hs
  have heuler' : s.schedule.integration = .ok .euler := (congrArg (·.schedule.integration) hsections).trans heuler
  obtain ⟨e, he⟩ := Evolution.exists_takeStep_euler hsolves hmass hsolvable hmultigrid dt
  obtain ⟨hsolvable', hmultigrid'⟩ := Evolution.takeStep_euler_memory hsolves hmass he
  rw [← hmodel] at he
  refine ⟨{ s with evolution := e }.tellNewton, ?_, hmodel, hsections, hsolvable'.trans hsolvable,
    hmultigrid'.trans hmultigrid, k, time, its, history, hprogress⟩
  exact run_bind_eq_ok.2 ⟨_, s, course_run hprogress, run_bind_eq_ok.2 ⟨.euler, s, setting_eq_ok.2 ⟨heuler', rfl⟩,
    run_bind_eq_ok.2 ⟨dt, s, run_ofExcept_eq_ok.2 ⟨hdt, rfl⟩,
      run_bind_eq_ok.2 ⟨⟨⟩, _, evolve_eq_ok.2 ⟨e, he, rfl⟩, rfl⟩⟩⟩⟩

include hsize hsolves in
theorem Able.postUpdate (hs : Able model sections v s) :
    ∃ t, postUpdate.run s = .ok ⟨⟩ t ∧ Able model sections v t := by
  obtain ⟨hmodel, hsections, hsolvable, hmultigrid, k, time, its, history, hprogress⟩ := hs
  obtain ⟨j, r, hj, -⟩ := hsolves.mass (model.recovery.rhs s.state.psi s.evolution.memory.current)
    s.evolution.memory.current s.evolution.memory.massReport
  let e : Evolution ℝ m.nodes := ⟨s.state, { s.evolution.memory with massReport := r, current := j }⟩
  have he : (Evolution.evaluate (s.model.recoverCurrent s.state.psi)).run s.evolution = .ok j e := by
    rw [hmodel]
    exact Evolution.evaluate_eq_ok.2 ⟨_, Model.recoverCurrent_eq_ok.2 ⟨hsolvable, r, hj, rfl⟩, rfl⟩
  have hcurrent : (discard (evolve fun model => Evolution.evaluate (model.recoverCurrent s.state.psi))).run s =
      .ok ⟨⟩ { s with evolution := e }.tellNewton := run_discard_eq_ok.2 ⟨j, evolve_eq_ok.2 ⟨e, he, rfl⟩⟩
  have hprogress' : { s with evolution := e }.tellNewton.progress = some ⟨k, time, some ⟨v, its, history⟩⟩ := hprogress
  unfold Simulation.postUpdate
  rw [run_get_bind, run_bind_of_eq_ok hcurrent, run_get_bind, hprogress']
  dsimp only
  rw [run_modify_bind, run_bind_of_eq_ok (run_ofExcept_eq_ok.2 ⟨hsize, rfl⟩)]
  exact ⟨_, rfl, hmodel, hsections, hsolvable, hmultigrid, _, _, _, _, rfl⟩

include hsilent heuler hdt hsize hsolves hmass in
/-- A simulation that is able to do what is asked of it still is afterwards. -/
theorem Able.act {d : Deed} (hs : Able model sections v s) (hstart : d ≠ .start) (hrelease : d ≠ .release) :
    ∃ t, d.act.run s = .ok ⟨⟩ t ∧ Able model sections v t := by
  have hsilent' : s.schedule.silent = .ok true := (congrArg (·.schedule.silent) hs.sections_eq).trans hsilent
  cases d with
  | start => exact absurd rfl hstart
  | release => exact absurd rfl hrelease
  | resume => exact ⟨_, rfl, { hs with }⟩
  | header => exact ⟨s, unlessSilent_run hsilent', hs⟩
  | update => exact hs.update heuler hdt hsolves hmass
  | record => exact hs.postUpdate hsize hsolves
  | receive signal => exact ⟨_, receive_run signal s, { hs with }⟩
  | write =>
    refine ⟨s, ?_, hs⟩
    exact run_bind_eq_ok.2 ⟨⟨⟩, s, unlessSilent_run hsilent', unlessSilent_run hsilent'⟩
  | summary began =>
    obtain ⟨k, time, its, history, hprogress⟩ := hs.progress
    obtain ⟨t, ht⟩ := exists_tellSummary ⟨time, _, hprogress⟩ began
    have haside := (aside_tellSummary began).of_run_ok (.refl s) ht
    refine ⟨t, ht, ?_⟩
    rw [haside]
    exact { hs with }
  | save => exact ⟨s, unlessSilent_run hsilent', hs⟩

include hsilent heuler hdt hsize hsolves hmass in
theorem Able.perform {deeds : List Deed} (hs : Able model sections v s) (hstart : .start ∉ deeds)
    (hrelease : .release ∉ deeds) : ∃ t, (perform deeds).run s = .ok ⟨⟩ t ∧ Able model sections v t := by
  induction deeds generalizing s with
  | nil => exact ⟨s, rfl, hs⟩
  | cons d deeds ih =>
    rw [List.mem_cons, not_or] at hstart hrelease
    obtain ⟨a, ha, hable⟩ := hs.act hsilent heuler hdt hsize hsolves hmass (Ne.symm hstart.1) (Ne.symm hrelease.1)
    rw [perform_cons, run_bind_of_eq_ok ha]
    exact ih hable hstart.2 hrelease.2

include hsilent heuler hdt hsize hsolves hmass in
/-- A silent run by Euler's method succeeds if its solves have answers. -/
theorem exists_perform_plan_euler {signals : ℕ → List Signal} {due : ℕ → Bool} {n : ℕ} {began : Moment}
    (hmodel : s.model = model) (hsections : s.sections = sections) (hv : s.schedule.dt = .ok v)
    (hsolvable : s.evolution.memory.solvable = true)
    (hmultigrid : s.evolution.memory.multigrid = model.multigridSolve.isSome) :
    ∃ t, (perform (plan signals due n began)).run s = .ok ⟨⟩ t := by
  obtain ⟨rest, hplan, hstart, hrelease⟩ := exists_plan_eq signals due n began
  have hable : Able model sections v (s.started v) :=
    ⟨hmodel, hsections, hsolvable, hmultigrid, 0, 0, 0, #[], rfl⟩
  obtain ⟨a, ha, -⟩ := hable.perform hsilent heuler hdt hsize hsolves hmass hstart hrelease
  rw [hplan, perform_start_cons hv, perform_append, run_bind_of_eq_ok ha]
  exact ⟨_, rfl⟩

end Silence

end Simulation

end Magnetofluid
