import Mathlib
import Magnetofluid.Proofs.Simulation.Success

/-!
# Runs

A run takes as many steps as its schedule and the signals allow for, and writes, records and saves what it should.

* `Simulation.StepCount`: the number of steps of a run.
* `Simulation.perform_turns`: turn by turn a run does the deeds of its steps, until it is over.
* `Simulation.run_eq_perform_plan`: a run does what is planned for its number of steps.
* `Simulation.Scheduled.run_eq_plan`: how often a run updates and writes, and what it leaves.
-/

namespace Magnetofluid.Simulation

variable {m : Mesh ℝ} {signals : ℕ → List Signal} {begun sim : Simulation m} {v : Value ℝ} {dt : ℝ}
  {tEnd freq : Number ℝ} {maxIt : ℤ} {k n : ℕ}

/-- A simulation is to take steps of the size `dt`, which is given as `v`, and to write after each multiple of `freq`
steps. -/
structure Scheduled (sim : Simulation m) (v : Value ℝ) (dt : ℝ) (tEnd : Number ℝ) (maxIt : ℤ) (freq : Number ℝ) :
    Prop where
  dt_eq : sim.schedule.dt = .ok v
  size : v.toScalar = .ok dt
  tEnd_eq : sim.schedule.tEnd = .ok tEnd
  maxIt_eq : sim.schedule.maxIt = .ok (.int maxIt)
  freq_eq : sim.schedule.writeFreq = .ok freq
  one_le : 1 ≤ freq.toScalar
  binary : freq.IsBinary

/-- The final time or the largest number of steps is reached after `k` steps. -/
def Ended (dt : ℝ) (tEnd : Number ℝ) (maxIt : ℤ) (k : ℕ) : Prop :=
  maxIt ≤ k ∨ tEnd.toScalar - 1e-8 * dt ≤ k * dt

/-- A run is over after `k` steps: its end is reached, or it was asked to stop. -/
def Over (signals : ℕ → List Signal) (dt : ℝ) (tEnd : Number ℝ) (maxIt : ℤ) (k : ℕ) : Prop :=
  Ended dt tEnd maxIt k ∨ ∃ i, 1 ≤ i ∧ i ≤ k ∧ Asked signals i

/-- A run takes `n` steps: those to its end, or to the first one in which it is asked to stop. -/
def StepCount (signals : ℕ → List Signal) (dt : ℝ) (tEnd : Number ℝ) (maxIt : ℤ) (n : ℕ) : Prop :=
  ∃ last, IsLeast {k | Ended dt tEnd maxIt k} last ∧
    (∀ k, IsLeast {k | 1 ≤ k ∧ Asked signals k} k → n = min last k) ∧ ((∀ k, 1 ≤ k → ¬ Asked signals k) → n = last)

/-- The moment when a run has written its first state. -/
noncomputable def beginning (begun : Simulation m) : Moment :=
  (stateAfter (perform [.start, .resume, .header, .write]) begun).workspace.now

/-! ### The number of steps -/

open Classical in
/-- A run takes a number of steps, of which the last one is the first after which it is over. -/
theorem exists_stepCount (signals : ℕ → List Signal) (dt : ℝ) (tEnd : Number ℝ) (maxIt : ℤ) :
    ∃ n, StepCount signals dt tEnd maxIt n ∧ n ≤ maxIt.toNat ∧ Over signals dt tEnd maxIt n ∧
      ∀ k < n, ¬ Over signals dt tEnd maxIt k := by
  have hmost : Ended dt tEnd maxIt maxIt.toNat := .inl (Int.self_le_toNat maxIt)
  have hended : ∃ k, Ended dt tEnd maxIt k := ⟨_, hmost⟩
  have hover : ∃ k, Over signals dt tEnd maxIt k := ⟨_, .inl hmost⟩
  have hle : Nat.find hover ≤ Nat.find hended := Nat.find_min' hover (.inl (Nat.find_spec hended))
  refine ⟨Nat.find hover, ⟨Nat.find hended, ⟨Nat.find_spec hended, fun k hk => Nat.find_min' hended hk⟩, ?_, ?_⟩,
    Nat.find_min' hover (.inl hmost), Nat.find_spec hover, fun k hk => Nat.find_min hover hk⟩
  · rintro k ⟨⟨hone, hasked⟩, hleast⟩
    refine le_antisymm (le_min hle (Nat.find_min' hover (.inr ⟨k, hone, le_rfl, hasked⟩))) ?_
    rcases Nat.find_spec hover with h | ⟨i, hi, hle, hasked⟩
    · exact (min_le_left _ _).trans (Nat.find_min' hended h)
    · exact (min_le_right _ _).trans ((hleast ⟨hi, hasked⟩).trans hle)
  · intro hnone
    refine le_antisymm hle ?_
    rcases Nat.find_spec hover with h | ⟨i, hi, -, hasked⟩
    · exact Nat.find_min' hended h
    · exact absurd hasked (hnone i hi)

/-! ### One turn -/

section Steps

variable (h : Scheduled begun v dt tEnd maxIt freq) (halong : Along signals freq.isDue begun v dt k sim)
include h halong

open Classical in
theorem isFinished_run : isFinished.run sim = .ok (decide (Ended dt tEnd maxIt k)) sim := by
  obtain ⟨its, history, hprogress, -⟩ := halong.progress
  have htEnd : sim.schedule.tEnd = .ok tEnd := halong.schedule ▸ h.tEnd_eq
  have hmaxIt : sim.schedule.maxIt = .ok (.int maxIt) := halong.schedule ▸ h.maxIt_eq
  have hsize : (MonadExcept.ofExcept v.toScalar : Simulating m ℝ).run sim = .ok dt sim :=
    run_ofExcept_eq_ok.2 ⟨h.size, rfl⟩
  have husable : (MonadExcept.ofExcept tEnd.usable : Simulating m ℝ).run sim = .ok tEnd.toScalar sim :=
    run_ofExcept_eq_ok.2 ⟨tEnd.usable_real, rfl⟩
  unfold isFinished
  rw [run_bind_of_eq_ok (setting_eq_ok.2 ⟨htEnd, rfl⟩), run_bind_of_eq_ok (standing_run hprogress),
    run_bind_of_eq_ok (course_run hprogress), run_bind_of_eq_ok hsize, run_bind_of_eq_ok husable]
  by_cases htime : tEnd.toScalar - 1e-8 * dt ≤ k * dt
  · have hended : Ended dt tEnd maxIt k := .inr htime
    have hreached : Scalar.le (tEnd.toScalar - 1e-8 * dt) (k * dt) = true := decide_eq_true htime
    rw [if_pos hreached, decide_eq_true hended]
    rfl
  · rw [if_neg (by simpa using htime), run_bind_of_eq_ok (setting_eq_ok.2 ⟨hmaxIt, rfl⟩)]
    have hended : Ended dt tEnd maxIt k ↔ maxIt ≤ k := or_iff_left htime
    rw [decide_eq_decide.2 hended]
    rfl

open Classical in
/-- A run goes on unless it is over. -/
theorem goesOn_run : goesOn.run sim = .ok (decide ¬ Over signals dt tEnd maxIt k) sim := by
  unfold goesOn
  rw [run_bind_of_eq_ok (isFinished_run h halong)]
  by_cases hended : Ended dt tEnd maxIt k
  · rw [if_pos (decide_eq_true hended), decide_eq_false (not_not.2 (.inl hended))]
    rfl
  · rw [if_neg (by simpa using hended), run_get_bind]
    have hends : Over signals dt tEnd maxIt k ↔ sim.stopping = true :=
      (or_iff_right hended).trans halong.stopping.symm
    rw [decide_eq_decide.2 (not_congr hends), EStateM.run_pure, decide_not, Bool.decide_eq_true]

theorem isWriteDue_run : isWriteDue.run sim = .ok (freq.isDue k) sim := by
  obtain ⟨its, history, hprogress, -⟩ := halong.progress
  have hfreq : sim.schedule.writeFreq = .ok freq := halong.schedule ▸ h.freq_eq
  unfold isWriteDue
  rw [run_bind_of_eq_ok (standing_run hprogress), run_bind_of_eq_ok (setting_eq_ok.2 ⟨hfreq, rfl⟩)]
  exact run_ofExcept_eq_ok.2 ⟨Number.divides_eq h.one_le h.binary k, rfl⟩

end Steps

theorem turn_eq (l : List Signal) : (turn l : Simulating m Unit) =
    perform ([.update, .record] ++ l.map .receive) >>= fun _ =>
      isWriteDue >>= fun due => if due then write else pure ⟨⟩ := by
  rw [List.cons_append, perform_cons, List.cons_append, perform_cons, List.nil_append, perform_receive, bind_assoc,
    bind_assoc]
  rfl

theorem endRun_eq (began : Moment) : (endRun began : Simulating m Unit) = isWriteDue >>= fun due =>
    perform ((if due then [] else [.write]) ++ [.summary began, .save, .release]) := by
  have hrest : (perform [.summary began, .save, .release] : Simulating m Unit) =
      tellSummary began >>= fun _ => saveResults >>= fun _ => evolve fun _ => Evolution.evaluate Model.release := by
    rw [perform_cons, perform_cons, perform_cons]
    exact bind_congr fun _ => bind_congr fun _ => bind_pure_unit
  unfold tellSummary at hrest
  simp only [bind_assoc] at hrest
  unfold endRun
  refine bind_congr fun due => ?_
  cases due with
  | true => exact hrest.symm
  | false =>
    show _ = perform (.write :: [.summary began, .save, .release])
    rw [perform_cons, hrest]
    rfl

theorem perform_singleton (d : Deed) : (perform [d] : Simulating m Unit) = d.act := bind_pure_unit

theorem beginRun_run (hfresh : begun.progress = none) :
    beginRun.run begun = (perform (stepsDeeds signals freq.isDue 0)).run begun := by
  have hopening : (perform (stepsDeeds signals freq.isDue 0) : Simulating m Unit) =
      start >>= fun _ => Deed.resume.act >>= fun _ => printHeader >>= fun _ => write := by
    unfold stepsDeeds
    rw [perform_cons, perform_cons, perform_cons, perform_singleton]
    rfl
  rw [hopening]
  unfold beginRun
  rw [run_get_bind, hfresh]
  rfl

/-- The columns of a history have as many items as it has records. -/
theorem length_columns {K : Type} (records : List (Record K)) :
    (Record.columns records).length = 7 ∧ ∀ column ∈ Record.columns records, column.items.length = records.length := by
  refine ⟨rfl, fun column hcolumn => ?_⟩
  unfold Record.columns at hcolumn
  simp only [List.mem_cons, List.not_mem_nil, or_false] at hcolumn
  rcases hcolumn with rfl | rfl | rfl | rfl | rfl | rfl | rfl
  all_goals exact List.length_map _

/-- A row of some columns: their names, each with its item in that place. -/
def row {K : Type} (columns : List (Csv.Column K)) (i : ℕ) : List (String × Option (Value K)) :=
  columns.map fun column => (column.name, column.items[i]?)

/-- The row of a record: its step, time and size of the step, the energies and the largest current after it, and the
iterations of Newton's method in it. -/
def rowOf {K : Type} (r : Record K) : List (String × Option (Value K)) :=
  [("step", some (.int r.step)), ("time", some (.real r.time)), ("dt", some r.dt), ("ekin", some (.real r.ekin)),
    ("emag", some (.real r.emag)), ("jmax", some (.real r.jmax)), ("newton_its", some (.int r.newtonIts))]

theorem row_columns {K : Type} {records : List (Record K)} {i : ℕ} {r : Record K} (h : records[i]? = some r) :
    row (Record.columns records) i = rowOf r := by
  simp [row, rowOf, Record.columns, h]

/-! ### Runs -/

section Runs

variable (h : Scheduled begun v dt tEnd maxIt freq)
include h

/-- A turn of the loop does the deeds of the next step. -/
theorem perform_turn (k : ℕ) :
    (perform (stepsDeeds signals freq.isDue k) >>= fun _ => turn (signals (k + 1))).run begun =
      (perform (stepsDeeds signals freq.isDue (k + 1))).run begun := by
  have hsteps : stepsDeeds signals freq.isDue (k + 1) =
      stepsDeeds signals freq.isDue k ++ stepDeeds signals freq.isDue (k + 1) := rfl
  rw [hsteps, perform_append]
  refine run_bind_congr rfl fun _ a ha => ?_
  have hstep : (perform (stepDeeds signals freq.isDue (k + 1)) : Simulating m Unit) =
      perform ([.update, .record] ++ (signals (k + 1)).map .receive) >>= fun _ =>
        perform (if freq.isDue (k + 1) then [.write] else []) := perform_append _ _
  rw [turn_eq, hstep]
  refine run_bind_congr rfl fun _ b hb => ?_
  have halong := along_received h.size ha (along_of_perform h.dt_eq h.size k ha) hb
  rw [run_bind_of_eq_ok (isWriteDue_run h halong)]
  cases freq.isDue (k + 1) with
  | true => exact congrArg (EStateM.run · b) (perform_singleton .write).symm
  | false => rfl

open Classical in
/-- A run goes on, turn by turn, until it is over. -/
theorem perform_turns (hover : Over signals dt tEnd maxIt n) (hnot : ∀ k < n, ¬ Over signals dt tEnd maxIt k)
    {rest fuel : ℕ} (hrest : k + rest = n) (hfuel : rest < fuel) :
    (perform (stepsDeeds signals freq.isDue k) >>= fun _ => turns signals fuel k).run begun =
      (perform (stepsDeeds signals freq.isDue n)).run begun := by
  -- upwards, by the number of steps that are left
  induction rest generalizing k fuel with
  | zero =>
    obtain rfl : k = n := hrest
    obtain ⟨fuel, rfl⟩ := Nat.exists_eq_add_of_lt hfuel
    rw [zero_add]
    conv_rhs => rw [← bind_pure_unit (x := perform (stepsDeeds signals freq.isDue k))]
    refine run_bind_congr rfl fun _ a ha => ?_
    unfold turns
    rw [run_bind_of_eq_ok (goesOn_run h (along_of_perform h.dt_eq h.size k ha)), decide_eq_false (not_not.2 hover)]
    rfl
  | succ rest ih =>
    obtain ⟨fuel, rfl⟩ := Nat.exists_eq_add_of_lt hfuel
    have hgoes :
        (perform (stepsDeeds signals freq.isDue k) >>= fun _ => turns signals (rest + 1 + fuel + 1) k).run begun =
          (perform (stepsDeeds signals freq.isDue k) >>= fun _ => turn (signals (k + 1)) >>= fun _ =>
            turns signals (rest + 1 + fuel) (k + 1)).run begun := by
      refine run_bind_congr rfl fun _ a ha => ?_
      rw [turns, run_bind_of_eq_ok (goesOn_run h (along_of_perform h.dt_eq h.size k ha)),
        decide_eq_true (hnot k (by omega))]
      rfl
    rw [hgoes, ← bind_assoc]
    exact (run_bind_congr (perform_turn h k) fun _ _ _ => rfl).trans (ih (by omega) (by omega))

theorem turnBound_eq (halong : Along signals freq.isDue begun v dt 0 sim) : sim.turnBound = maxIt.toNat + 1 := by
  obtain ⟨its, history, hprogress, -⟩ := halong.progress
  have hmaxIt : sim.schedule.maxIt = .ok (.int maxIt) := halong.schedule ▸ h.maxIt_eq
  unfold turnBound
  rw [hprogress, hmaxIt]
  show (maxIt - ((0 : ℕ) : ℤ)).toNat + 1 = _
  rw [Nat.cast_zero, sub_zero]

/-- A run that is over after `n` steps is the plan of so many steps. -/
theorem run_eq_perform_plan (hfresh : begun.progress = none) (hn : n ≤ maxIt.toNat)
    (hover : Over signals dt tEnd maxIt n) (hnot : ∀ k < n, ¬ Over signals dt tEnd maxIt k) :
    (run signals).run begun = (perform (plan signals freq.isDue n (beginning begun))).run begun := by
  have hopened : (run signals).run begun = (perform (stepsDeeds signals freq.isDue 0) >>= fun _ =>
      turns signals (maxIt.toNat + 1) 0 >>= fun _ => endRun (beginning begun)).run begun := by
    refine run_bind_congr (beginRun_run hfresh) fun _ a ha => ?_
    have hbound := turnBound_eq h (along_opening h.dt_eq ha)
    have hbeginning : beginning begun = a.workspace.now := by
      have hafter : stateAfter (perform [.start, .resume, .header, .write]) begun = a := by
        unfold stateAfter
        rw [show (perform [.start, .resume, .header, .write]).run begun = .ok ⟨⟩ a from ha]
      exact congrArg (·.workspace.now) hafter
    rw [run_get_bind, hbound, hbeginning]
  unfold plan
  rw [hopened, ← bind_assoc, List.append_assoc, perform_append]
  refine run_bind_congr (perform_turns h hover hnot (Nat.zero_add n) (by omega)) fun _ a ha => ?_
  rw [endRun_eq, run_bind_of_eq_ok (isWriteDue_run h (along_of_perform h.dt_eq h.size n ha))]

/-! ### What a run leaves -/

/-- Where the plan of `n` steps leads to, `n` steps are taken. -/
theorem progress_of_perform_plan {began : Moment}
    (ha : (perform (plan signals freq.isDue n began)).run begun = .ok ⟨⟩ sim) :
    ∃ its history, sim.progress = some ⟨n, n * dt, some ⟨v, its, history⟩⟩ ∧ history.size = n ∧
      ∀ i r, history[i]? = some r → IsRecord signals freq.isDue begun v dt i r := by
  unfold plan at ha
  rw [List.append_assoc, perform_append] at ha
  obtain ⟨_, a, hsteps, hend⟩ := run_bind_eq_ok.1 ha
  obtain ⟨its, history, hprogress, -, hcount, hrecords⟩ := (along_of_perform h.dt_eq h.size n hsteps).progress
  have hkept : sim.progress = a.progress :=
    progress_of_perform (by split <;> simp) (by split <;> simp) (by split <;> simp) hend
  exact ⟨its, history, hkept.trans hprogress, hcount, hrecords⟩

/-- A run writes where as many steps are taken as are recorded. -/
theorem stands_of_write {signals : ℕ → List Signal} {due : ℕ → Bool} {began : Moment} {before after : List Deed}
    (heq : plan signals due n began = before ++ .write :: after)
    (ha : (perform before).run begun = .ok ⟨⟩ sim) : sim.Stands (before.count .record) := by
  obtain ⟨rest, hplan, hstart, -⟩ := exists_plan_eq signals due n began
  rw [hplan] at heq
  cases before with
  | nil => cases heq
  | cons d before =>
    obtain ⟨rfl, hrest⟩ := List.cons.inj heq
    have hstart' : .start ∉ before := fun hmem => by
      have hmem' : Deed.start ∈ rest ++ [.release] := hrest.symm ▸ List.mem_append_left _ hmem
      simp [hstart] at hmem'
    rw [perform_start_cons h.dt_eq] at ha
    have hcount := (started_stands begun v).perform hstart' ha
    rw [zero_add] at hcount
    rw [List.count_cons_of_ne (by decide)]
    exact hcount

end Runs

/-! ### Signals that ask for nothing -/

theorem forM_receive_filter (l : List Signal) :
    ((l.filter (·.stops)).forM receive : Simulating m Unit) = l.forM receive := by
  refine EStateM.ext fun s => ?_
  have hany : (l.filter (·.stops)).any (·.stops) = l.any (·.stops) := by simp [List.any_filter]
  rw [forM_receive_run, forM_receive_run, hany]

theorem turns_filter (signals : ℕ → List Signal) (fuel taken : ℕ) :
    (turns (fun k => (signals k).filter (·.stops)) fuel taken : Simulating m Unit) = turns signals fuel taken := by
  induction fuel generalizing taken with
  | zero => rfl
  | succ fuel ih =>
    unfold turns turn
    rw [forM_receive_filter, ih]

theorem run_filter (signals : ℕ → List Signal) :
    (run (fun k => (signals k).filter (·.stops)) : Simulating m Unit) = run signals := by
  unfold run
  simp only [turns_filter]

/-- **The course of a run.**  A simulation that was not started before takes as many steps as there are to its end, or
to the first one in which it is asked to stop; signals that do not ask for it change nothing.  It updates once in each
step.  It writes before the first step, after each step whose number is a multiple of the frequency, and after the last
one, once each and in this order; it saves when it has written for the last time.  It succeeds if its steps and its
output do, and then each column of its history has one item for each step, the one of the record of that step. -/
theorem Scheduled.run_eq_plan (h : Scheduled begun v dt tEnd maxIt freq) (hfresh : begun.progress = none)
    (signals : ℕ → List Signal) : ∃ n, StepCount signals dt tEnd maxIt n ∧ ∃ deeds,
      deeds = plan signals freq.isDue n (beginning begun) ∧
      (run signals).run begun = (perform deeds).run begun ∧
      (run fun k => (signals k).filter (·.stops)) = (run signals : Simulating m Unit) ∧
      deeds.count .update = n ∧
      (written 0 deeds).Pairwise (· < ·) ∧
      (∀ k, k ∈ written 0 deeds ↔ k = 0 ∨ k ≤ n ∧ freq.IsMultiple k ∨ k = n) ∧
      (∀ before after a, deeds = before ++ .write :: after → (perform before).run begun = .ok ⟨⟩ a →
        a.Stands (before.count .record)) ∧
      (∃ before, deeds = before ++ [.summary (beginning begun), .save, .release] ∧ .save ∉ before) ∧
      ((∀ before d after a, deeds = before ++ d :: after → d ∈ risky → (perform before).run begun = .ok ⟨⟩ a →
          ∃ b, d.act.run a = .ok ⟨⟩ b) → ∃ t, (run signals).run begun = .ok ⟨⟩ t) ∧
      ∀ t, (run signals).run begun = .ok ⟨⟩ t → ∃ its history,
        t.progress = some ⟨n, n * dt, some ⟨v, its, history⟩⟩ ∧
        (Record.columns history.toList).length = 7 ∧
        (∀ column ∈ Record.columns history.toList, column.items.length = n) ∧
        ∀ i r, history[i]? = some r →
          IsRecord signals freq.isDue begun v dt i r ∧ row (Record.columns history.toList) i = rowOf r := by
  obtain ⟨n, hcount, hle, hover, hnot⟩ := exists_stepCount signals dt tEnd maxIt
  have hrun := run_eq_perform_plan h hfresh hle hover hnot
  have hzero : freq.isDue 0 = true := Number.isDue_iff.2 (Number.isMultiple_zero freq)
  refine ⟨n, hcount, _, rfl, hrun, run_filter signals, count_update_plan n _, pairwise_written_plan hzero n _,
    fun k => ?_, fun before after a => stands_of_write h, exists_plan_eq_save signals freq.isDue n _, ?_, ?_⟩
  · rw [mem_written_plan hzero, Number.isDue_iff]
  · intro hrisky
    rw [hrun]
    exact exists_perform_plan h.dt_eq hrisky
  · intro t ht
    rw [hrun] at ht
    obtain ⟨its, history, hprogress, hsize, hrecords⟩ := progress_of_perform_plan h ht
    obtain ⟨hseven, hlength⟩ := length_columns history.toList
    refine ⟨its, history, hprogress, hseven, fun column hcolumn => ?_, fun i r hr => ⟨hrecords i r hr, ?_⟩⟩
    · rw [hlength column hcolumn, Array.length_toList, hsize]
    · rw [row_columns (by rwa [Array.getElem?_toList])]

/-! ### A run that is interrupted -/

/-- A vortex of flux in the unit square, to be taken through five steps in silence, and to be written after every second
one. -/
noncomputable def brief : Simulation Mesh.unitSquare where
  model := Model.square
  sections := { sheet with
    options := .ofNames [("silent", .bool true), ("write_freq", .int 2)]
    numerics := .ofNames [("integrator", .text "explicit"), ("scheme", .text "euler"), ("dt", .int 1),
      ("t_end", .int 10), ("max_it", .int 5)] }
  evolution := ⟨⟨Vec.zeros _, Model.vortex, Vec.zeros _⟩, .fresh Model.square⟩
  progress := none
  stopping := false
  outdir := none
  workspace := morning

/-- A signal that asks for nothing in each step, and one that asks the run to stop in the third one. -/
def interrupted (k : ℕ) : List Signal := .user2 :: if k = 3 then [.interrupt] else []

theorem scheduled_brief : Scheduled brief (.int 1) 1 (.int 10) 5 (.int 2) where
  dt_eq := rfl
  size := congrArg Except.ok ((Scalar.ofInt_real 1).trans Int.cast_one)
  tEnd_eq := rfl
  maxIt_eq := rfl
  freq_eq := rfl
  one_le := by
    show (1 : ℝ) ≤ Scalar.ofInt 2
    rw [Scalar.ofInt_real]
    norm_num
  binary := trivial

theorem asked_interrupted {k : ℕ} : Asked interrupted k ↔ k = 3 := by
  unfold Asked interrupted
  split
  · simp_all [Signal.stops]
  · simp_all [Signal.stops]

theorem stepCount_interrupted {n : ℕ} (h : StepCount interrupted 1 (.int 10) 5 n) : n = 3 := by
  obtain ⟨last, ⟨hended, -⟩, hstop, -⟩ := h
  have hthird : IsLeast {k | 1 ≤ k ∧ Asked interrupted k} 3 :=
    ⟨⟨by norm_num, asked_interrupted.2 rfl⟩, fun k hk => (asked_interrupted.1 hk.2).ge⟩
  rw [hstop 3 hthird]
  refine min_eq_right ?_
  rcases hended with hmost | htime
  · omega
  · change Scalar.ofInt 10 - 1e-8 * (1 : ℝ) ≤ last * 1 at htime
    rw [Scalar.ofInt_real] at htime
    norm_num at htime
    have hlast : ((3 : ℕ) : ℝ) ≤ last := by
      push_cast
      linarith
    exact_mod_cast hlast

/-- The run takes three steps, writes at the start, after the second step and after the third one, and leaves three
records, without iterations of Newton's method. -/
theorem run_eq_plan_brief : Scheduled brief (.int 1) 1 (.int 10) 5 (.int 2) ∧ brief.progress = none ∧
    ∃ deeds t its history, deeds.count .update = 3 ∧ (∀ k, k ∈ written 0 deeds ↔ k = 0 ∨ k = 2 ∨ k = 3) ∧
      (run interrupted).run brief = (perform deeds).run brief ∧ (run interrupted).run brief = .ok ⟨⟩ t ∧
      t.progress = some ⟨3, 3 * 1, some ⟨.int 1, its, history⟩⟩ ∧
      (∀ column ∈ Record.columns history.toList, column.items.length = 3) ∧
      ∀ (i : ℕ) r, history[i]? = some r → r.step = i + 1 ∧ r.newtonIts = 0 ∧
        row (Record.columns history.toList) i = rowOf r := by
  obtain ⟨n, hcount, deeds, hdeeds, hrun, -, hupdates, -, hwritten, -, -, -, hleft⟩ :=
    scheduled_brief.run_eq_plan rfl interrupted
  obtain rfl := stepCount_interrupted hcount
  have hsilent : brief.sections.schedule.silent = .ok true := rfl
  have heuler : brief.sections.schedule.integration = .ok .euler := rfl
  have hsucceeds : ∃ t, (run interrupted).run brief = .ok ⟨⟩ t := by
    rw [hrun, hdeeds]
    exact exists_perform_plan_euler hsilent heuler rfl scheduled_brief.size Model.square_exactSolves rfl rfl rfl
      scheduled_brief.dt_eq rfl rfl
  obtain ⟨t, ht⟩ := hsucceeds
  obtain ⟨its, history, hprogress, -, hlength, hrecords⟩ := hleft t ht
  refine ⟨scheduled_brief, rfl, deeds, t, its, history, hupdates, fun k => ?_, hrun, ht, hprogress, hlength,
    fun i r hr => ?_⟩
  · rw [hwritten, Number.isMultiple_int]
    omega
  · obtain ⟨hrecord, hitems⟩ := hrecords i r hr
    obtain ⟨_, _, -, -, -, hexplicit⟩ := hrecord.newtonIts
    refine ⟨hrecord.step, hexplicit fun himplicit => ?_, hitems⟩
    cases heuler.symm.trans himplicit

end Magnetofluid.Simulation
