import Mathlib
import Magnetofluid.Proofs.Simulation.Plan
import Magnetofluid.Proofs.Simulation.Reached

/-!
# The course of a run

What each deed of a run leaves when it succeeds.

* `Simulation.Aside`: to print and to save changes the workspace alone.
* `Simulation.update_ok`, `Simulation.postUpdate_ok`: a step counts its iterations, and then itself.
* `Simulation.Stands`: how many steps a simulation has taken; `Simulation.Stands.perform`: it has recorded as many.
* `Simulation.NewtonStepped`: how many steps Newton's method takes in an implicit step.
* `Simulation.Along`: where a run stands after so many steps, and what it has recorded by then.
* `Simulation.along_of_perform`: that is where the deeds of so many steps lead to.
-/

namespace Magnetofluid.Simulation

section Deeds

variable {K : Type} [RealText K] {m : Mesh K} {s t : Simulation m} {u : Unit}

/-! ### The workspace -/

/-- A simulation differs from another one in its workspace alone. -/
def Aside (s t : Simulation m) : Prop := t = { s with workspace := t.workspace }

theorem Aside.refl (s : Simulation m) : Aside s s := rfl

theorem aside_within {α : Type} (act : Work K α) : Keeps (Aside s) (within act) := by
  intro t ht
  unfold stateAfter within EStateM.run
  dsimp only
  rw [ht]
  cases act t.workspace with
  | ok a workspace => rfl
  | error e workspace => rfl

theorem aside_unlessSilent {act : Simulating m Unit} (h : Keeps (Aside s) act) :
    Keeps (Aside s) (unlessSilent act) := by
  refine .bind (keeps_setting _) fun silent => ?_
  split
  · exact .pure _
  · exact h

theorem keeps_standing {P : Simulation m → Prop} : Keeps P standing := by
  refine .bind .get fun _ => ?_
  split
  · exact .pure _
  · exact .throw _

theorem aside_printHeader : Keeps (Aside s) printHeader :=
  aside_unlessSilent (.bind (aside_within _) fun _ => .bind (aside_within _) fun _ => aside_within _)

theorem aside_printStatus : Keeps (Aside s) printStatus := by
  refine aside_unlessSilent (.bind .get fun _ => ?_)
  split
  · exact .bind keeps_course fun _ => .bind (.ofExcept _) fun _ => aside_within _
  · exact .throw _

theorem keeps_outputFile {P : Simulation m → Prop} (parts : List String) : Keeps P (outputFile parts) := by
  refine .bind .get fun _ => ?_
  split
  · exact .pure _
  · exact .throw _

theorem aside_save (parts : List String) : Keeps (Aside s) (save parts) :=
  .bind (keeps_outputFile _) fun _ => .bind keeps_standing fun _ => .bind .get fun _ => aside_within _

theorem aside_write : Keeps (Aside s) write :=
  .bind aside_printStatus fun _ => aside_unlessSilent (.bind keeps_standing fun _ => aside_save _)

theorem aside_tellSummary (began : Moment) : Keeps (Aside s) (tellSummary began) :=
  .bind keeps_standing fun _ => .bind .get fun _ => .bind (aside_within _) fun _ => .bind (aside_within _) fun _ =>
    .bind (aside_within _) fun _ => aside_within _

theorem aside_saveResults : Keeps (Aside s) saveResults := by
  refine aside_unlessSilent (.bind ?_ fun _ => aside_save _)
  exact .bind (keeps_outputFile _) fun _ => .bind keeps_course fun _ => aside_within _

/-! ### Steps -/

/-- A simulation at time zero, with steps of a size. -/
def started (s : Simulation m) (v : Value K) : Simulation m := { s with progress := some ⟨0, 0, some ⟨v, 0, #[]⟩⟩ }

theorem start_eq_ok : start.run s = .ok u t ↔ ∃ v, s.schedule.dt = .ok v ∧ t = s.started v := by
  unfold start
  rw [run_modify_bind, run_bind_eq_ok]
  simp only [setting_eq_ok, run_modify_eq_ok]
  constructor
  · rintro ⟨v, _, ⟨hv, rfl⟩, rfl⟩
    exact ⟨v, hv, rfl⟩
  · rintro ⟨v, hv, rfl⟩
    exact ⟨v, _, ⟨hv, rfl⟩, rfl⟩

theorem standing_run {p : Progress K} (hs : s.progress = some p) : standing.run s = .ok p s := by
  unfold standing
  rw [run_get_bind, hs]
  rfl

theorem course_run {step : ℤ} {time : K} {c : Course K} (hs : s.progress = some ⟨step, time, some c⟩) :
    course.run s = .ok c s := by
  unfold course
  rw [run_get_bind, hs]
  rfl

theorem evolve_ok {α : Type} {act : Model K m.nodes → Evolving K m.nodes α} {a : α} (h : (evolve act).run s = .ok a t) :
    t.sections = s.sections ∧ t.stopping = s.stopping ∧ t.progress = s.progress := by
  obtain ⟨e, -, rfl⟩ := evolve_eq_ok.1 h
  exact ⟨rfl, rfl, rfl⟩

/-- A step tells its iterations, if it is implicit, and changes nothing else of the progress. -/
theorem update_ok {step : ℤ} {time : K} {c : Course K} (hs : s.progress = some ⟨step, time, some c⟩)
    (h : update.run s = .ok u t) : t.sections = s.sections ∧ t.stopping = s.stopping ∧
      ∃ integration, s.schedule.integration = .ok integration ∧ t.progress = some ⟨step, time, some { c with
        newtonIts := if integration = .implicit then t.evolution.memory.newton.iterations else c.newtonIts }⟩ := by
  unfold update at h
  rw [run_bind_of_eq_ok (course_run hs)] at h
  obtain ⟨integration, _, hlook, h⟩ := run_bind_eq_ok.1 h
  obtain ⟨hintegration, rfl⟩ := setting_eq_ok.1 hlook
  obtain ⟨size, _, hlook, h⟩ := run_bind_eq_ok.1 h
  obtain ⟨-, rfl⟩ := run_ofExcept_eq_ok.1 hlook
  obtain ⟨_, mid, hevolve, h⟩ := run_bind_eq_ok.1 h
  obtain ⟨hsections, hstopping, hprogress⟩ := evolve_ok hevolve
  by_cases himplicit : integration = .implicit
  · rw [if_pos himplicit, run_get_bind] at h
    obtain rfl := run_modify_eq_ok.1 h
    refine ⟨hsections, hstopping, integration, hintegration, ?_⟩
    rw [if_pos himplicit]
    show mid.progress.map _ = _
    rw [hprogress, hs]
    rfl
  · rw [if_neg himplicit] at h
    obtain ⟨-, rfl⟩ := run_pure_eq_ok.1 h
    refine ⟨hsections, hstopping, integration, hintegration, ?_⟩
    rw [if_neg himplicit, hprogress, hs]

def recordOf (s : Simulation m) (step : ℤ) (time : K) (c : Course K) : Record K where
  step := step
  time := time
  dt := c.dt
  ekin := s.kineticEnergy
  emag := s.magneticEnergy
  jmax := Vec.maxAbs s.current
  newtonIts := c.newtonIts

/-- A step is counted and recorded. -/
theorem postUpdate_ok {step : ℤ} {time : K} {c : Course K} (hs : s.progress = some ⟨step, time, some c⟩)
    (h : postUpdate.run s = .ok u t) : t.sections = s.sections ∧ t.stopping = s.stopping ∧
      ∃ dt, c.dt.toScalar = .ok dt ∧ t.progress = some ⟨step + 1, time + dt, some { c with
        history := c.history.push (t.recordOf (step + 1) (time + dt) c) }⟩ := by
  unfold postUpdate at h
  rw [run_get_bind] at h
  obtain ⟨_, mid, hcurrent, h⟩ := run_bind_eq_ok.1 h
  obtain ⟨j, hcurrent⟩ := run_discard_eq_ok.1 hcurrent
  obtain ⟨hsections, hstopping, hprogress⟩ := evolve_ok hcurrent
  rw [run_get_bind, hprogress, hs] at h
  dsimp only at h
  rw [run_modify_bind] at h
  obtain ⟨dt, _, hlook, h⟩ := run_bind_eq_ok.1 h
  obtain ⟨hdt, rfl⟩ := run_ofExcept_eq_ok.1 hlook
  rw [run_get_bind] at h
  cases h
  exact ⟨hsections, hstopping, dt, hdt, rfl⟩

/-! ### Signals -/

theorem receive_run (signal : Signal) (s : Simulation m) :
    (receive signal).run s = .ok ⟨⟩ { s with stopping := s.stopping || signal.stops } := by
  unfold receive
  cases signal.stops with
  | false =>
    rw [Bool.or_false]
    rfl
  | true =>
    rw [Bool.or_true]
    rfl

theorem forM_receive_run (signals : List Signal) (s : Simulation m) :
    (signals.forM receive).run s = .ok ⟨⟩ { s with stopping := s.stopping || signals.any (·.stops) } := by
  induction signals generalizing s with
  | nil =>
    rw [List.any_nil, Bool.or_false]
    rfl
  | cons signal signals ih =>
    show (receive signal >>= fun _ => signals.forM receive).run s = _
    rw [run_bind_of_eq_ok (receive_run signal s), ih, List.any_cons, Bool.or_assoc]

/-! ### Some deeds after others -/

theorem perform_cons (d : Deed) (deeds : List Deed) :
    (perform (d :: deeds) : Simulating m Unit) = d.act >>= fun _ => perform deeds := rfl

theorem perform_append (deeds deeds' : List Deed) :
    (perform (deeds ++ deeds') : Simulating m Unit) = perform deeds >>= fun _ => perform deeds' := by
  induction deeds with
  | nil => exact (pure_bind PUnit.unit fun _ => perform deeds').symm
  | cons d deeds ih =>
    rw [List.cons_append, perform_cons, perform_cons, ih, bind_assoc]

theorem perform_start_cons {v : Value K} (hdt : s.schedule.dt = .ok v) (deeds : List Deed) :
    (perform (.start :: deeds)).run s = (perform deeds).run (s.started v) := by
  have hstart : Deed.start.act.run s = .ok ⟨⟩ (s.started v) := start_eq_ok.2 ⟨v, hdt, rfl⟩
  rw [perform_cons, run_bind_of_eq_ok hstart]

theorem perform_receive (signals : List Signal) :
    (perform (signals.map .receive) : Simulating m Unit) = signals.forM receive := by
  induction signals with
  | nil => rfl
  | cons signal signals ih =>
    rw [List.map_cons, perform_cons, ih]
    rfl

/-! ### Progress -/

/-- To start, to take a step and to record it are all the deeds that touch the progress. -/
theorem progress_of_act {d : Deed} (hstart : d ≠ .start) (hupdate : d ≠ .update) (hrecord : d ≠ .record)
    (h : d.act.run s = .ok u t) : t.progress = s.progress := by
  have haside : Aside s t → t.progress = s.progress := fun haside => by rw [haside]
  cases d with
  | start => exact absurd rfl hstart
  | update => exact absurd rfl hupdate
  | record => exact absurd rfl hrecord
  | resume =>
    obtain rfl := run_modify_eq_ok.1 h
    rfl
  | header => exact haside (aside_printHeader.of_run_ok (.refl s) h)
  | receive signal =>
    obtain rfl := (EStateM.Result.ok.inj ((receive_run signal s).symm.trans h)).2
    rfl
  | write => exact haside (aside_write.of_run_ok (.refl s) h)
  | summary began => exact haside ((aside_tellSummary began).of_run_ok (.refl s) h)
  | save => exact haside (aside_saveResults.of_run_ok (.refl s) h)
  | release =>
    have hrelease : (evolve fun _ => Evolution.evaluate Model.release : Simulating m Unit).run s = .ok u t := h
    exact (evolve_ok hrelease).2.2

theorem progress_of_perform {deeds : List Deed} (hstart : .start ∉ deeds) (hupdate : .update ∉ deeds)
    (hrecord : .record ∉ deeds) (h : (perform deeds).run s = .ok u t) : t.progress = s.progress := by
  induction deeds generalizing s with
  | nil =>
    obtain ⟨-, rfl⟩ := run_pure_eq_ok.1 h
    rfl
  | cons d deeds ih =>
    rw [perform_cons] at h
    obtain ⟨_, a, hact, hrest⟩ := run_bind_eq_ok.1 h
    rw [List.mem_cons, not_or] at hstart hupdate hrecord
    exact (ih hstart.2 hupdate.2 hrecord.2 hrest).trans
      (progress_of_act (Ne.symm hstart.1) (Ne.symm hupdate.1) (Ne.symm hrecord.1) hact)

/-- A simulation was started and has taken `k` steps since. -/
def Stands (s : Simulation m) (k : ℤ) : Prop := ∃ time c, s.progress = some ⟨k, time, some c⟩

theorem started_stands (s : Simulation m) (v : Value K) : (s.started v).Stands 0 := ⟨0, ⟨v, 0, #[]⟩, rfl⟩

theorem Stands.act {k : ℤ} {d : Deed} (hs : s.Stands k) (hstart : d ≠ .start) (h : d.act.run s = .ok u t) :
    t.Stands (k + if d = .record then 1 else 0) := by
  obtain ⟨time, c, hprogress⟩ := hs
  by_cases hrecord : d = .record
  · subst d
    obtain ⟨-, -, dt, -, hprogress'⟩ := postUpdate_ok hprogress h
    exact ⟨_, _, hprogress'⟩
  rw [if_neg hrecord, add_zero]
  by_cases hupdate : d = .update
  · subst d
    obtain ⟨-, -, integration, -, hprogress'⟩ := update_ok hprogress h
    exact ⟨_, _, hprogress'⟩
  · exact ⟨time, c, (progress_of_act hstart hupdate hrecord h).trans hprogress⟩

/-- Deeds after the start take as many steps as they record. -/
theorem Stands.perform {k : ℤ} {deeds : List Deed} (hs : s.Stands k) (hstart : .start ∉ deeds)
    (h : (perform deeds).run s = .ok u t) : t.Stands (k + deeds.count .record) := by
  induction deeds generalizing s k with
  | nil =>
    obtain ⟨-, rfl⟩ := run_pure_eq_ok.1 h
    simpa using hs
  | cons d deeds ih =>
    rw [perform_cons] at h
    obtain ⟨_, a, hact, hrest⟩ := run_bind_eq_ok.1 h
    rw [List.mem_cons, not_or] at hstart
    have hstands := ih (hs.act (Ne.symm hstart.1) hact) hstart.2 hrest
    have hcount : k + ((d :: deeds).count .record : ℤ) = k + (if d = .record then 1 else 0) + deeds.count .record := by
      rw [List.count_cons]
      by_cases hrecord : d = .record
      · simp [hrecord]
        ring
      · simp [hrecord]
    rw [hcount]
    exact hstands

end Deeds

/-! ### Newton's method in a step -/

/-- Newton's method takes `k` steps on the way from a state to the one after an implicit step. -/
def NewtonStepped {m : Mesh ℝ} (s t : Simulation m) (k : ℕ) : Prop :=
  ∃ (dt : Number ℝ) (st : Newton.State ℝ (3 * m.nodes) (Memory ℝ m.nodes)),
    Newton.Stepped s.model.newton s.model.linear s.model.system k
      ⟨s.state.toVec, { Newton.Progress.none with norm := s.evolution.memory.newton.norm },
        { s.evolution.memory with step.step := some ⟨dt, s.state⟩ }⟩ st ∧
      t.state = State.ofVec st.x

theorem update_stepped {m : Mesh ℝ} {s t : Simulation m} {u : Unit} (himplicit : s.schedule.integration = .ok .implicit)
    (h : update.run s = .ok u t) : NewtonStepped s t t.evolution.memory.newton.iterations := by
  unfold update at h
  obtain ⟨c, a, hcourse, hrest⟩ := run_bind_eq_ok.1 h
  obtain rfl : a = s := (keeps_course (P := (· = s))).of_run_ok rfl hcourse
  obtain ⟨integration, _, hlook, h⟩ := run_bind_eq_ok.1 hrest
  obtain ⟨hintegration, rfl⟩ := setting_eq_ok.1 hlook
  obtain rfl := Except.ok.inj (himplicit.symm.trans hintegration)
  obtain ⟨dt, _, hlook, h⟩ := run_bind_eq_ok.1 h
  obtain ⟨-, rfl⟩ := run_ofExcept_eq_ok.1 hlook
  obtain ⟨_, b, hevolve, h⟩ := run_bind_eq_ok.1 h
  obtain ⟨e, hstep, rfl⟩ := evolve_eq_ok.1 hevolve
  rw [if_pos rfl, run_get_bind] at h
  obtain rfl := run_modify_eq_ok.1 h
  unfold Evolution.takeStep at hstep
  rw [run_get_bind] at hstep
  obtain ⟨k, _, hevaluate, hstep⟩ := run_bind_eq_ok.1 hstep
  obtain ⟨mem, hk, rfl⟩ := Evolution.evaluate_eq_ok.1 hevaluate
  obtain ⟨size, _, hsize, hadvance⟩ := run_bind_eq_ok.1 hstep
  obtain ⟨rfl, rfl⟩ := Evolution.ofExcept_usable_eq_ok.1 hsize
  obtain rfl := Evolution.advance_eq_ok.1 hadvance
  obtain ⟨hpos, y, hy, -, rfl⟩ := Model.implicitRate_eq_ok.1 hk
  obtain ⟨st, hsolve, rfl, rfl⟩ := Model.solveStep_eq_ok.1 hy
  exact ⟨dt, st, Newton.solve_stepped hsolve, Evolution.advance_stepRate hpos _ _⟩

/-! ### Along a run -/

section Along

variable {m : Mesh ℝ} (signals : ℕ → List Signal) (due : ℕ → Bool) (begun : Simulation m) (v : Value ℝ) (dt : ℝ)

/-- A signal that arrives in a step asks the run to stop. -/
def Asked (k : ℕ) : Prop := ∃ signal ∈ signals k, signal.stops = true

/-- A record is the one of the step after `k` steps: `a` is where they lead to, and `b` where the step itself leads. -/
structure IsRecord (k : ℕ) (r : Record ℝ) : Prop where
  step : r.step = k + 1
  time : r.time = (k + 1) * dt
  dt : r.dt = v
  newtonIts : ∃ a b, (perform (stepsDeeds signals due k)).run begun = .ok ⟨⟩ a ∧ update.run a = .ok ⟨⟩ b ∧
    (begun.schedule.integration = .ok .implicit → NewtonStepped a b r.newtonIts) ∧
    (begun.schedule.integration ≠ .ok .implicit → r.newtonIts = 0)

/-- A run stands where `k` steps lead to. -/
structure Along (k : ℕ) (sim : Simulation m) : Prop where
  sections : sim.sections = begun.sections
  stopping : sim.stopping = true ↔ ∃ i, 1 ≤ i ∧ i ≤ k ∧ Asked signals i
  progress : ∃ its history, sim.progress = some ⟨k, k * dt, some ⟨v, its, history⟩⟩ ∧
    (begun.schedule.integration ≠ .ok .implicit → its = 0) ∧ history.size = k ∧
    ∀ i r, history[i]? = some r → IsRecord signals due begun v dt i r

variable {signals due begun v dt} {k : ℕ} {sim sim' : Simulation m}

theorem Along.schedule (h : Along signals due begun v dt k sim) : sim.schedule = begun.schedule := by
  unfold Simulation.schedule
  rw [h.sections]

theorem Along.aside (h : Along signals due begun v dt k sim) (haside : Aside sim sim') :
    Along signals due begun v dt k sim' := by
  rw [haside]
  exact ⟨h.sections, h.stopping, h.progress⟩

variable (hdt : begun.schedule.dt = .ok v) (hsize : v.toScalar = .ok dt)

include hdt in
theorem along_opening {u : Unit} (h : (perform (stepsDeeds signals due 0)).run begun = .ok u sim) :
    Along signals due begun v dt 0 sim := by
  unfold stepsDeeds at h
  rw [perform_start_cons hdt, perform_cons] at h
  obtain ⟨_, mid, hresume, h⟩ := run_bind_eq_ok.1 h
  obtain rfl := run_modify_eq_ok.1 hresume
  rw [perform_cons] at h
  obtain ⟨_, mid, hheader, h⟩ := run_bind_eq_ok.1 h
  rw [perform_cons] at h
  obtain ⟨_, mid', hwrite, h⟩ := run_bind_eq_ok.1 h
  obtain ⟨-, rfl⟩ := run_pure_eq_ok.1 h
  have hmid := aside_printHeader.of_run_ok (.refl _) hheader
  have hmid' := aside_write.of_run_ok (.refl _) hwrite
  have hstarted : Along signals due begun v dt 0
      { begun.started v with stopping := false } := by
    refine ⟨rfl, ?_, 0, #[], ?_, fun _ => rfl, rfl, fun i r hr => ?_⟩
    · simp only [Bool.false_eq_true, false_iff]
      rintro ⟨i, hone, hzero, -⟩
      omega
    · simp [started]
    · simp at hr
  exact (hstarted.aside hmid).aside hmid'

theorem exists_asked_succ : (∃ i, 1 ≤ i ∧ i ≤ k + 1 ∧ Asked signals i) ↔
    (∃ i, 1 ≤ i ∧ i ≤ k ∧ Asked signals i) ∨ Asked signals (k + 1) := by
  constructor
  · rintro ⟨i, hone, hle, hasked⟩
    by_cases hi : i = k + 1
    · exact .inr (hi ▸ hasked)
    · exact .inl ⟨i, hone, by omega, hasked⟩
  · rintro (⟨i, hone, hle, hasked⟩ | hasked)
    · exact ⟨i, hone, by omega, hasked⟩
    · exact ⟨k + 1, by omega, le_rfl, hasked⟩

theorem isRecord_push {history : Array (Record ℝ)} {r : Record ℝ} (hcount : history.size = k)
    (hrecords : ∀ i r, history[i]? = some r → IsRecord signals due begun v dt i r)
    (hr : IsRecord signals due begun v dt k r) (i : ℕ) (r' : Record ℝ) (hr' : (history.push r)[i]? = some r') :
    IsRecord signals due begun v dt i r' := by
  rw [Array.getElem?_push, hcount] at hr'
  split at hr'
  · obtain rfl := Option.some.inj hr'
    subst i
    exact hr
  · exact hrecords i r' hr'

include hsize in
/-- Step by step a run counts, records, and remembers whether it was asked to stop. -/
theorem along_received {u : Unit} {a : Simulation m} (ha : (perform (stepsDeeds signals due k)).run begun = .ok ⟨⟩ a)
    (halong : Along signals due begun v dt k a)
    (h : (perform ([.update, .record] ++ (signals (k + 1)).map .receive)).run a = .ok u sim) :
    Along signals due begun v dt (k + 1) sim := by
  obtain ⟨its, history, hprogress, hidle, hcount, hrecords⟩ := halong.progress
  rw [List.cons_append, perform_cons] at h
  obtain ⟨_, b, hupdate, h⟩ := run_bind_eq_ok.1 h
  obtain ⟨hsections, hstopping, integration, hintegration, hprogress'⟩ := update_ok hprogress hupdate
  rw [List.cons_append, perform_cons] at h
  obtain ⟨_, c, hrecord, h⟩ := run_bind_eq_ok.1 h
  obtain ⟨hsections', hstopping', dt', hdt', hprogress''⟩ := postUpdate_ok hprogress' hrecord
  rw [List.nil_append, perform_receive, forM_receive_run] at h
  cases h
  rw [hsize] at hdt'
  obtain rfl := Except.ok.inj hdt'
  let iterations := if integration = .implicit then b.evolution.memory.newton.iterations else its
  let r := c.recordOf (k + 1) (k * dt + dt) ⟨v, iterations, history⟩
  have hschedule : begun.schedule.integration = .ok integration := halong.schedule ▸ hintegration
  have himplicit : begun.schedule.integration = .ok .implicit → NewtonStepped a b iterations := by
    intro h
    have hyes : integration = .implicit := Except.ok.inj (hschedule.symm.trans h)
    have hiterations : iterations = b.evolution.memory.newton.iterations := if_pos hyes
    rw [hiterations]
    exact update_stepped (hyes ▸ hintegration) hupdate
  have hexplicit : begun.schedule.integration ≠ .ok .implicit → iterations = 0 := by
    intro h
    have hno : integration ≠ .implicit := fun hyes => h (hschedule.trans (congrArg _ hyes))
    exact (if_neg hno).trans (hidle h)
  have htime : (k : ℝ) * dt + dt = (k + 1) * dt := by ring
  have hr : IsRecord signals due begun v dt k r := ⟨rfl, htime, rfl, a, b, ha, hupdate, himplicit, hexplicit⟩
  refine ⟨hsections'.trans (hsections.trans halong.sections), ?_, iterations, history.push r, ?_, hexplicit, ?_,
    isRecord_push hcount hrecords hr⟩
  · show (c.stopping || (signals (k + 1)).any (·.stops)) = true ↔ _
    rw [hstopping', hstopping, Bool.or_eq_true, halong.stopping, List.any_eq_true]
    exact exists_asked_succ.symm
  · show c.progress = _
    have hcast : ((k + 1 : ℕ) : ℝ) * dt = k * dt + dt := by rw [Nat.cast_succ, htime]
    rw [hprogress'', hcast]
    rfl
  · rw [Array.size_push, hcount]

include hsize in
theorem along_step {u : Unit} {a : Simulation m} (ha : (perform (stepsDeeds signals due k)).run begun = .ok ⟨⟩ a)
    (halong : Along signals due begun v dt k a) (h : (perform (stepDeeds signals due (k + 1))).run a = .ok u sim) :
    Along signals due begun v dt (k + 1) sim := by
  unfold stepDeeds at h
  rw [perform_append] at h
  obtain ⟨_, b, hreceived, h⟩ := run_bind_eq_ok.1 h
  have hb := along_received hsize ha halong hreceived
  split at h
  · rw [perform_cons] at h
    obtain ⟨_, d, hwrite, h⟩ := run_bind_eq_ok.1 h
    obtain ⟨-, rfl⟩ := run_pure_eq_ok.1 h
    exact hb.aside (aside_write.of_run_ok (.refl _) hwrite)
  · obtain ⟨-, rfl⟩ := run_pure_eq_ok.1 h
    exact hb

include hdt hsize in
/-- The deeds of `k` steps lead to where a run stands after them. -/
theorem along_of_perform (k : ℕ) {u : Unit} {sim : Simulation m}
    (h : (perform (stepsDeeds signals due k)).run begun = .ok u sim) : Along signals due begun v dt k sim := by
  induction k generalizing sim with
  | zero => exact along_opening hdt h
  | succ k ih =>
    unfold stepsDeeds at h
    rw [perform_append] at h
    obtain ⟨_, a, ha, h⟩ := run_bind_eq_ok.1 h
    exact along_step hsize ha (ih ha) h

end Along

end Magnetofluid.Simulation
