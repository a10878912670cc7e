import Mathlib
import Magnetofluid.Proofs.Exact.Text
import Magnetofluid.Simulation.Run

/-!
# Plans of runs

What a run does when it is known how many steps it takes, one deed after the other.

* `Number.divides_eq`: after which steps a run writes.
* `Simulation.Deed`, `Simulation.perform`: the deeds of runs, and what it is to do some of them.
* `Simulation.plan`: the deeds of a run of so many steps.
* `Simulation.written_plan`: the steps after which a plan writes, and their order.
* `Simulation.exists_plan_eq`, `Simulation.exists_plan_eq_save`: how a plan begins and how it ends.
-/

namespace Magnetofluid

/-! ### Multiples -/

namespace Binary

theorem toRatio_den_pos (p : ℕ) (e : ℤ) : 0 < (toRatio p e).den := by
  cases e with
  | ofNat k => exact one_pos
  | negSucc k => exact Nat.pow_pos Nat.two_pos

theorem toRatio_num (p : ℕ) (e : ℤ) :
    ((toRatio p e).num : ℝ) = p * ((2 : ℕ) : ℝ) ^ e * ((toRatio p e).den : ℝ) := by
  cases e with
  | ofNat k => simp [toRatio]
  | negSucc k =>
    have htwo : ((2 : ℕ) : ℝ) ^ (k + 1) ≠ 0 := pow_ne_zero _ (by norm_num)
    simp only [toRatio, zpow_negSucc, Nat.cast_pow, Nat.pow_eq]
    rw [mul_assoc, inv_mul_cancel₀ htwo, mul_one]

theorem exists_ofReal {x : ℝ} (h : ∃ p : ℕ × ℤ, |x| = p.1 * ((2 : ℕ) : ℝ) ^ p.2) :
    ∃ negative p e, ofReal x = .finite negative p e ∧ |x| = p * ((2 : ℕ) : ℝ) ^ e :=
  ⟨_, _, _, dif_pos h, h.choose_spec⟩

open Classical in
theorem isMultiple_ofReal {x y : ℝ} (hx : ∃ p : ℕ × ℤ, |x| = p.1 * ((2 : ℕ) : ℝ) ^ p.2)
    (hy : ∃ p : ℕ × ℤ, |y| = p.1 * ((2 : ℕ) : ℝ) ^ p.2) (hnonneg : 0 ≤ x) (hpos : 0 < y) :
    isMultiple (ofReal x) (ofReal y) = decide (∃ c : ℤ, x = c * y) := by
  obtain ⟨_, p, e, hofX, hxvalue⟩ := exists_ofReal hx
  obtain ⟨_, q, f, hofY, hyvalue⟩ := exists_ofReal hy
  rw [abs_of_nonneg hnonneg] at hxvalue
  rw [abs_of_pos hpos] at hyvalue
  have hq : q ≠ 0 := by
    rintro rfl
    rw [hyvalue, Nat.cast_zero, zero_mul] at hpos
    exact lt_irrefl _ hpos
  have hxden : (0 : ℝ) < (toRatio p e).den := Nat.cast_pos.2 (toRatio_den_pos p e)
  have hyden : (0 : ℝ) < (toRatio q f).den := Nat.cast_pos.2 (toRatio_den_pos q f)
  have hxnum : ((toRatio p e).num : ℝ) = x * (toRatio p e).den := by rw [toRatio_num, hxvalue]
  have hynum : ((toRatio q f).num : ℝ) = y * (toRatio q f).den := by rw [toRatio_num, hyvalue]
  -- both fractions over their common denominator
  have hdvd : (toRatio q f).num * (toRatio p e).den ∣ (toRatio p e).num * (toRatio q f).den ↔
      ∃ c : ℤ, x = c * y := by
    constructor
    · rintro ⟨c, hc⟩
      refine ⟨c, ?_⟩
      have hcast : ((toRatio p e).num : ℝ) * (toRatio q f).den = (toRatio q f).num * (toRatio p e).den * c := by
        exact_mod_cast hc
      rw [hxnum, hynum] at hcast
      refine mul_right_cancel₀ (mul_pos hxden hyden).ne' ?_
      push_cast
      linear_combination hcast
    · rintro ⟨c, hc⟩
      have hcnonneg : 0 ≤ c := by
        by_contra hneg
        have hcneg : (c : ℝ) < 0 := by exact_mod_cast not_le.1 hneg
        rw [hc] at hnonneg
        exact absurd (mul_neg_of_neg_of_pos hcneg hpos) (not_lt.2 hnonneg)
      obtain ⟨k, rfl⟩ := Int.eq_ofNat_of_zero_le hcnonneg
      refine ⟨k, ?_⟩
      have hcast : ((toRatio p e).num : ℝ) * (toRatio q f).den = (toRatio q f).num * (toRatio p e).den * k := by
        rw [hxnum, hynum, hc]
        push_cast
        ring
      exact_mod_cast hcast
  rw [hofX, hofY]
  simp only [isMultiple, hq, ne_eq, not_false_eq_true, decide_true, Bool.true_and]
  exact decide_eq_decide.2 (Nat.dvd_iff_mod_eq_zero.symm.trans hdvd)

end Binary

namespace Number

/-- A number is one that a machine can hold: an integer, or a real number that is an integer times a power of two. -/
def IsBinary : Number ℝ → Prop
  | .int _ => True
  | .real y => ∃ p : ℕ × ℤ, |y| = p.1 * ((2 : ℕ) : ℝ) ^ p.2

def IsMultiple (x : Number ℝ) (k : ℕ) : Prop := ∃ c : ℤ, (k : ℝ) = c * x.toScalar

theorem isMultiple_zero (x : Number ℝ) : x.IsMultiple 0 := ⟨0, by simp⟩

theorem isMultiple_int {j : ℤ} {k : ℕ} : IsMultiple (.int j) k ↔ j ∣ k := by
  unfold IsMultiple toScalar
  simp only [Scalar.ofInt_real]
  constructor
  · rintro ⟨c, hc⟩
    refine ⟨c, ?_⟩
    rw [mul_comm]
    exact_mod_cast hc
  · rintro ⟨c, hc⟩
    refine ⟨c, ?_⟩
    rw [mul_comm]
    exact_mod_cast hc

open Classical in
noncomputable def isDue (x : Number ℝ) (k : ℕ) : Bool := decide (x.IsMultiple k)

open Classical in
theorem isDue_iff {x : Number ℝ} {k : ℕ} : x.isDue k = true ↔ x.IsMultiple k := decide_eq_true_iff

/-- A number that is not below one tells its multiples. -/
theorem divides_eq {x : Number ℝ} (hx : 1 ≤ x.toScalar) (hbinary : x.IsBinary) (k : ℕ) :
    x.divides k = .ok (x.isDue k) := by
  cases x with
  | int j =>
    have hj : j ≠ 0 := by
      rintro rfl
      norm_num [toScalar] at hx
    unfold divides
    dsimp only
    rw [if_neg hj]
    refine congrArg Except.ok (decide_eq_decide.2 ?_)
    rw [isMultiple_int, Int.dvd_iff_emod_eq_zero]
  | real y =>
    have hy : 0 < y := one_pos.trans_le hx
    have hk : ∃ p : ℕ × ℤ, |(k : ℝ)| = p.1 * ((2 : ℕ) : ℝ) ^ p.2 := ⟨(k, 0), by simp⟩
    have hmultiple := Binary.isMultiple_ofReal hk hbinary (Nat.cast_nonneg k) hy
    unfold divides
    dsimp only
    rw [if_neg (by simp [hy.ne']), Scalar.ofInt_real, Int.cast_natCast]
    exact congrArg Except.ok hmultiple

end Number

namespace Simulation

/-! ### Deeds -/

/-- What a run does, one after the other. -/
inductive Deed
  | start
  /-- Forgets that a signal asked the simulation to stop. -/
  | resume
  | header
  | update
  /-- Counts the step that was taken and records it. -/
  | record
  | receive (signal : Signal)
  | write
  /-- Tells how long it is since the run began. -/
  | summary (began : Moment)
  /-- Saves history and final state. -/
  | save
  | release
deriving DecidableEq

section Perform

variable {K : Type} [RealText K] {m : Mesh K}

def tellSummary (began : Moment) : Simulating m Unit := do
  let p ← standing
  let elapsed := began.since (← get).workspace.now
  let rule := Text.repeated 33 "="
  tell rule
  tell ("Total walltime   :  " ++ Moment.durationText elapsed)
  tell ("(" ++ Moment.speedText p.step.toNat elapsed ++ " steps/s)")
  tell rule

/-- Saves history and final state, unless the simulation is silent. -/
def saveResults : Simulating m Unit := unlessSilent do
  saveHistory
  Simulation.save ["state.npz"]

def Deed.act : Deed → Simulating m Unit
  | start => Simulation.start
  | resume => modify fun s => { s with stopping := false }
  | header => printHeader
  | update => Simulation.update
  | record => postUpdate
  | receive signal => Simulation.receive signal
  | write => Simulation.write
  | summary began => tellSummary began
  | save => saveResults
  | release => evolve fun _ => Evolution.evaluate Model.release

def perform (deeds : List Deed) : Simulating m Unit := deeds.forM Deed.act

end Perform

/-! ### Plans -/

section Plans

variable (signals : ℕ → List Signal) (due : ℕ → Bool)

/-- The deeds of a step. -/
def stepDeeds (k : ℕ) : List Deed :=
  [.update, .record] ++ (signals k).map .receive ++ if due k then [.write] else []

/-- The deeds of a run before its end, when so many steps are taken. -/
def stepsDeeds : ℕ → List Deed
  | 0 => [.start, .resume, .header, .write]
  | k + 1 => stepsDeeds k ++ stepDeeds signals due (k + 1)

/-- The deeds of a run of `n` steps that began at a moment. -/
def plan (n : ℕ) (began : Moment) : List Deed :=
  stepsDeeds signals due n ++ (if due n then [] else [.write]) ++ [.summary began, .save, .release]

/-- The numbers of steps after which deeds write, when `taken` steps are recorded already. -/
def written : (taken : ℕ) → List Deed → List ℕ
  | _, [] => []
  | taken, .record :: deeds => written (taken + 1) deeds
  | taken, .write :: deeds => taken :: written taken deeds
  | taken, _ :: deeds => written taken deeds

theorem written_append (taken : ℕ) (deeds deeds' : List Deed) :
    written taken (deeds ++ deeds') = written taken deeds ++ written (taken + deeds.count .record) deeds' := by
  induction deeds generalizing taken with
  | nil => rfl
  | cons d deeds ih =>
    cases d with
    | record =>
      have hcount : taken + (Deed.record :: deeds).count .record = taken + 1 + deeds.count .record := by
        rw [List.count_cons_self]
        omega
      rw [hcount]
      exact ih (taken + 1)
    | write => exact congrArg _ (ih taken)
    | start => exact ih taken
    | resume => exact ih taken
    | header => exact ih taken
    | update => exact ih taken
    | receive signal => exact ih taken
    | summary began => exact ih taken
    | save => exact ih taken
    | release => exact ih taken

variable {signals due}

theorem count_receive (d : Deed) (hd : ∀ signal, d ≠ .receive signal) (l : List Signal) :
    (l.map .receive).count d = 0 := by
  refine List.count_eq_zero.2 fun h => ?_
  obtain ⟨signal, -, rfl⟩ := List.mem_map.1 h
  exact hd signal rfl

theorem written_receive (taken : ℕ) (l : List Signal) : written taken (l.map .receive) = [] := by
  induction l with
  | nil => rfl
  | cons signal l ih => exact ih

theorem count_stepDeeds (d : Deed) (hd : d = .update ∨ d = .record) (k : ℕ) :
    (stepDeeds signals due k).count d = 1 := by
  have hreceive := count_receive d (by rintro signal rfl; simp at hd) (signals k)
  unfold stepDeeds
  rw [List.count_append, List.count_append, hreceive]
  rcases hd with rfl | rfl
  · split <;> rfl
  · split <;> rfl

theorem written_stepDeeds (k : ℕ) :
    written k (stepDeeds signals due (k + 1)) = if due (k + 1) then [k + 1] else [] := by
  unfold stepDeeds
  rw [written_append, written_append, List.count_append, count_receive .record (fun _ => nofun), written_receive]
  show written (k + (1 + 0)) _ = _
  split
  · rfl
  · rfl

/-- A step has one update and one record. -/
theorem count_stepsDeeds (d : Deed) (hd : d = .update ∨ d = .record) (n : ℕ) :
    (stepsDeeds signals due n).count d = n := by
  induction n with
  | zero => rcases hd with rfl | rfl <;> rfl
  | succ n ih =>
    unfold stepsDeeds
    rw [List.count_append, ih, count_stepDeeds d hd]

theorem mem_stepDeeds {d : Deed} {k : ℕ} (h : d ∈ stepDeeds signals due k) :
    d = .update ∨ d = .record ∨ d = .write ∨ ∃ signal ∈ signals k, d = .receive signal := by
  unfold stepDeeds at h
  rw [List.mem_append, List.mem_append, List.mem_map] at h
  rcases h with (h | ⟨signal, hsignal, rfl⟩) | h
  · rcases List.mem_cons.1 h with rfl | h
    · exact .inl rfl
    · exact .inr (.inl (List.mem_singleton.1 h))
  · exact .inr (.inr (.inr ⟨signal, hsignal, rfl⟩))
  · split at h
    · exact .inr (.inr (.inl (List.mem_singleton.1 h)))
    · cases h

variable (signals due) in
/-- A run starts once. -/
theorem exists_stepsDeeds_eq (n : ℕ) : ∃ rest, stepsDeeds signals due n = .start :: rest ∧ .start ∉ rest := by
  induction n with
  | zero => exact ⟨_, rfl, by decide⟩
  | succ n ih =>
    obtain ⟨rest, hrest, hstart⟩ := ih
    refine ⟨rest ++ stepDeeds signals due (n + 1), ?_, fun h => ?_⟩
    · unfold stepsDeeds
      rw [hrest, List.cons_append]
    · rcases List.mem_append.1 h with h | h
      · exact hstart h
      · rcases mem_stepDeeds h with h | h | h | ⟨_, -, h⟩
        all_goals cases h

variable (signals due) in
/-- The end of a run is not among its steps. -/
theorem notMem_stepsDeeds {d : Deed} (hd : d = .save ∨ d = .release) (n : ℕ) : d ∉ stepsDeeds signals due n := by
  induction n with
  | zero =>
    rcases hd with rfl | rfl
    · exact (by decide : Deed.save ∉ [.start, .resume, .header, .write])
    · exact (by decide : Deed.release ∉ [.start, .resume, .header, .write])
  | succ n ih =>
    intro h
    rcases List.mem_append.1 h with h | h
    · exact ih h
    · rcases mem_stepDeeds h with rfl | rfl | rfl | ⟨_, -, rfl⟩
      all_goals simp at hd

variable (signals due) in
/-- Between its start and the release of its solves, which come once each, a run does the rest. -/
theorem exists_plan_eq (n : ℕ) (began : Moment) : ∃ rest, plan signals due n began = .start :: (rest ++ [.release]) ∧
    .start ∉ rest ∧ .release ∉ rest := by
  obtain ⟨rest, hrest, hstart⟩ := exists_stepsDeeds_eq signals due n
  have hrelease := notMem_stepsDeeds signals due (.inr rfl) n
  rw [hrest, List.mem_cons, not_or] at hrelease
  refine ⟨rest ++ (if due n then [] else [.write]) ++ [.summary began, .save], ?_, ?_, ?_⟩
  · unfold plan
    rw [hrest]
    simp only [List.cons_append, List.append_assoc, List.nil_append]
  · simp only [List.mem_append, not_or]
    exact ⟨⟨hstart, by split <;> simp⟩, by simp⟩
  · simp only [List.mem_append, not_or]
    exact ⟨⟨hrelease.2, by split <;> simp⟩, by simp⟩

theorem count_update_plan (n : ℕ) (began : Moment) : (plan signals due n began).count .update = n := by
  unfold plan
  rw [List.count_append, List.count_append, count_stepsDeeds _ (.inl rfl)]
  split <;> rfl

theorem written_stepsDeeds (n : ℕ) :
    written 0 (stepsDeeds signals due n) = (List.range (n + 1)).filter fun k => k = 0 || due k := by
  induction n with
  | zero => rfl
  | succ n ih =>
    unfold stepsDeeds
    rw [written_append, ih, count_stepsDeeds _ (.inr rfl), zero_add, written_stepDeeds, List.range_succ (n := n + 1),
      List.filter_append]
    refine congrArg _ ?_
    simp [List.filter_cons]

/-- A run writes before its first step, after each step that is due and after its last one, once each and in this
order. -/
theorem written_plan (hzero : due 0 = true) (n : ℕ) (began : Moment) : written 0 (plan signals due n began) =
    (List.range (n + 1)).filter fun k => k = 0 || due k || k = n := by
  unfold plan
  rw [written_append, written_append, written_stepsDeeds, count_stepsDeeds _ (.inr rfl), zero_add]
  show _ ++ _ ++ [] = _
  rw [List.append_nil]
  cases hdue : due n with
  | true =>
    show _ ++ [] = _
    rw [List.append_nil]
    refine List.filter_congr fun k _ => ?_
    by_cases hk : k = n
    · simp [hk, hdue]
    · simp [hk]
  | false =>
    have hpos : n ≠ 0 := by
      rintro rfl
      rw [hzero] at hdue
      cases hdue
    have hbefore : ((List.range n).filter fun k => k = 0 || due k) =
        (List.range n).filter fun k => k = 0 || due k || k = n := by
      refine List.filter_congr fun k hk => ?_
      simp [(List.mem_range.1 hk).ne]
    show _ ++ [n] = _
    rw [List.range_succ, List.filter_append, List.filter_append, hbefore]
    simp [hdue, hpos]

theorem pairwise_written_plan (hzero : due 0 = true) (n : ℕ) (began : Moment) :
    (written 0 (plan signals due n began)).Pairwise (· < ·) := by
  rw [written_plan hzero]
  exact List.pairwise_lt_range.filter _

theorem mem_written_plan (hzero : due 0 = true) {n k : ℕ} {began : Moment} :
    k ∈ written 0 (plan signals due n began) ↔ k = 0 ∨ k ≤ n ∧ due k = true ∨ k = n := by
  rw [written_plan hzero, List.mem_filter, List.mem_range]
  simp only [Bool.or_eq_true, decide_eq_true_eq]
  constructor
  · rintro ⟨hk, (hfirst | hdue) | hlast⟩
    · exact .inl hfirst
    · exact .inr (.inl ⟨Nat.lt_succ_iff.1 hk, hdue⟩)
    · exact .inr (.inr hlast)
  · rintro (rfl | ⟨hk, hdue⟩ | rfl)
    · exact ⟨Nat.succ_pos n, .inl (.inl rfl)⟩
    · exact ⟨Nat.lt_succ_iff.2 hk, .inl (.inr hdue)⟩
    · exact ⟨Nat.lt_succ_self k, .inr rfl⟩

variable (signals due) in
/-- A run saves when it has written for the last time. -/
theorem exists_plan_eq_save (n : ℕ) (began : Moment) :
    ∃ before, plan signals due n began = before ++ [.summary began, .save, .release] ∧ .save ∉ before := by
  refine ⟨_, rfl, fun h => ?_⟩
  rcases List.mem_append.1 h with h | h
  · exact notMem_stepsDeeds signals due (.inl rfl) n h
  · split at h <;> simp at h

end Plans

end Simulation

end Magnetofluid
