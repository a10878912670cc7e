import Mathlib
import Magnetofluid.Proofs.Form.Bracket
import Magnetofluid.Proofs.Simulation.Reached

/-!
# Steps that fail

What is left of a step in time that cannot be completed.  Wherever a failure occurs before the state is moved, the state
is the one before.  Nothing can fail after an implicit step has moved it, but the explicit schemes move it before they
recover the stream function: if that fails, flux and vorticity are at the end of the step and the stream function at its
start.

* `Evolution.takeStep_eq_error`: the two ways in which a step leaves the state.
* `Simulation.update_eq_error`: the same for a step of a simulation.
-/

namespace Magnetofluid

open Matrix

/-! ### One step -/

namespace Evolution

variable {K : Type} [Scalar K] {n : ℕ} {model : Model K n} {e e' : Evolution K n} {f : Failure K}

/-- The rate along which an explicit method takes its step, and what the model remembers after it. -/
inductive ExplicitRate (model : Model K n) (size : K) (start : Evolution K n) :
    Integration → State K n → Memory K n → Prop
  | euler {rate : State K n} {after : Memory K n} (rate_of : (model.rate start.state).run start.memory = .ok rate after) :
    ExplicitRate model size start .euler rate after
  | midpoint {k rate : State K n} {phi : Vec K n} {mem mem' after : Memory K n}
    (first : (model.rate start.state).run start.memory = .ok k mem)
    (half : (model.potential (start.state.advance (0.5 * size) k)).run mem = .ok phi mem')
    (rate_of : (model.rate { start.state.advance (0.5 * size) k with phi }).run mem' = .ok rate after) :
    ExplicitRate model size start .midpoint rate after

/-- An explicit step was taken along its rate, but the stream function at its end could not be recovered. -/
structure Unrecovered (model : Model K n) (integration : Integration) (size : K) (start : Evolution K n)
    (rate : State K n) (f : Failure K) (e : Evolution K n) : Prop where
  moved : ∃ mem, ExplicitRate model size start integration rate mem ∧
    (model.potential (start.state.advance size rate)).run mem = .error f e.memory
  state : e.state = start.state.advance size rate

/-- No rate moves the stream function. -/
theorem rate_phi {x k : State K n} {mem mem' : Memory K n} (h : (model.rate x).run mem = .ok k mem') :
    k.phi = Vec.zeros n := by
  unfold Model.rate at h
  rw [run_modify_bind] at h
  obtain ⟨j, _, -, h⟩ := run_bind_eq_ok.1 h
  rw [run_get_bind] at h
  obtain ⟨psi, _, -, h⟩ := run_bind_eq_ok.1 h
  obtain ⟨w, _, -, h⟩ := run_bind_eq_ok.1 h
  obtain ⟨rfl, -⟩ := run_pure_eq_ok.1 h
  rfl

theorem ExplicitRate.phi {size : K} {start : Evolution K n} {integration : Integration} {rate : State K n}
    {after : Memory K n} (h : ExplicitRate model size start integration rate after) : rate.phi = Vec.zeros n := by
  cases h with
  | euler rate_of => exact rate_phi rate_of
  | midpoint _ _ rate_of => exact rate_phi rate_of

theorem recoverPotential_eq_error (h : (recoverPotential model).run e = .error f e') :
    e'.state = e.state ∧ (model.potential e.state).run e.memory = .error f e'.memory := by
  unfold recoverPotential at h
  rw [run_get_bind] at h
  rcases run_bind_eq_error.1 h with h | ⟨phi, _, -, h⟩
  · obtain ⟨mem, hpotential, rfl⟩ := evaluate_eq_error.1 h
    exact ⟨rfl, hpotential⟩
  · exact absurd h run_modify_ne_error

/-- The last part of an explicit step can only fail after the state was moved. -/
theorem ExplicitRate.unrecovered {size : K} {start : Evolution K n} {integration : Integration} {rate : State K n}
    {mem : Memory K n} (hrate : ExplicitRate model size start integration rate mem)
    (h : (advance size rate >>= fun _ => recoverPotential model).run ⟨start.state, mem⟩ = .error f e') :
    Unrecovered model integration size start rate f e' := by
  rcases run_bind_eq_error.1 h with h | ⟨_, _, hadvance, h⟩
  · exact absurd h run_modify_ne_error
  obtain rfl := advance_eq_ok.1 hadvance
  obtain ⟨hstate, hfailed⟩ := recoverPotential_eq_error h
  exact ⟨⟨mem, hrate, hfailed⟩, hstate⟩

theorem state_of_usable_error {dt : Number K}
    (h : (MonadExcept.ofExcept dt.usable : Evolving K n K).run e = .error f e') : e'.state = e.state := by
  obtain ⟨-, rfl⟩ := run_ofExcept_eq_error.1 h
  rfl

/-- A step that fails leaves the state as it was, or it is an explicit one that lacks the stream function only. -/
theorem takeStep_eq_error {integration : Integration} {dt : Number K}
    (h : (takeStep model integration dt).run e = .error f e') :
    e'.state = e.state ∨ integration ≠ .implicit ∧
      ∃ size rate, dt.usable = .ok size ∧ Unrecovered model integration size e rate f e' := by
  unfold takeStep at h
  rw [run_get_bind] at h
  cases integration with
  | implicit =>
    left
    rcases run_bind_eq_error.1 h with h | ⟨rate, _, hevaluate, h⟩
    · exact state_of_evaluate_error h
    obtain ⟨mem, -, rfl⟩ := evaluate_eq_ok.1 hevaluate
    rcases run_bind_eq_error.1 h with h | ⟨size, _, -, h⟩
    · exact (state_of_usable_error h :)
    · exact absurd h run_modify_ne_error
  | euler =>
    rcases run_bind_eq_error.1 h with h | ⟨rate, _, hevaluate, h⟩
    · exact .inl (state_of_evaluate_error h :)
    obtain ⟨mem, hrate, rfl⟩ := evaluate_eq_ok.1 hevaluate
    rcases run_bind_eq_error.1 h with h | ⟨size, _, hlook, h⟩
    · exact .inl (state_of_usable_error h :)
    obtain ⟨hsize, rfl⟩ := run_ofExcept_eq_ok.1 hlook
    exact .inr ⟨nofun, size, rate, hsize, (ExplicitRate.euler hrate).unrecovered h⟩
  | midpoint =>
    rcases run_bind_eq_error.1 h with h | ⟨rate, _, hevaluate, h⟩
    · exact .inl (state_of_evaluate_error h :)
    obtain ⟨mem, hfirst, rfl⟩ := evaluate_eq_ok.1 hevaluate
    rcases run_bind_eq_error.1 h with h | ⟨size, _, hlook, h⟩
    · exact .inl (state_of_usable_error h :)
    obtain ⟨hsize, rfl⟩ := run_ofExcept_eq_ok.1 hlook
    -- the stream function half way is recovered before the state itself is moved
    rcases run_bind_eq_error.1 h with h | ⟨phi, _, hevaluate, h⟩
    · exact .inl (state_of_evaluate_error h :)
    obtain ⟨mem', hhalf, rfl⟩ := evaluate_eq_ok.1 hevaluate
    rcases run_bind_eq_error.1 h with h | ⟨rate', _, hevaluate, h⟩
    · exact .inl (state_of_evaluate_error h :)
    obtain ⟨mem'', hrate, rfl⟩ := evaluate_eq_ok.1 hevaluate
    exact .inr ⟨nofun, size, rate', hsize, (ExplicitRate.midpoint hfirst hhalf hrate).unrecovered h⟩

end Evolution

/-! ### Steps of a simulation -/

namespace Simulation

variable {K : Type} [RealText K] {m : Mesh K} {s t : Simulation m} {f : Failure K}

theorem evolve_eq_error {α : Type} {act : Model K m.nodes → Evolving K m.nodes α} :
    (evolve act).run s = .error f t ↔
      ∃ e, (act s.model).run s.evolution = .error f e ∧ t = { s with evolution := e }.tellNewton := by
  show evolve act s = _ ↔ _
  unfold evolve
  cases (act s.model).run s.evolution with
  | ok b e => simp
  | error f e => simp [eq_comm]

/-- **What a failed step leaves.**  The state is the one before, or the step is an explicit one: then flux and vorticity
have gone through it, and the stream function, which no rate moves, could not be recovered. -/
theorem update_eq_error (h : update.run s = .error f t) :
    t.state = s.state ∨ ∃ (c : Course K) (integration : Integration) (dt : Number K) (size : K) (rate : State K m.nodes)
      (e : Evolution K m.nodes), course.run s = .ok c s ∧ s.schedule.integration = .ok integration ∧
        integration ≠ .implicit ∧ c.dt.toNumber = .ok dt ∧ dt.usable = .ok size ∧
        Evolution.Unrecovered s.model integration size s.evolution rate f e ∧ rate.phi = Vec.zeros m.nodes ∧
        t.state = s.state.advance size rate := by
  unfold update at h
  rcases run_bind_eq_error.1 h with hfail | ⟨c, u, hcourse, hrest⟩
  · have hkept : t = s := (keeps_course (P := (· = s))).of_run_error rfl hfail
    exact .inl (congrArg state hkept)
  have hkept : u = s := (keeps_course (P := (· = s))).of_run_ok rfl hcourse
  subst hkept
  rcases run_bind_eq_error.1 hrest with hfail | ⟨integration, _, hsetting, hrest⟩
  · have hkept : t = u := (keeps_setting (P := (· = u)) _).of_run_error rfl hfail
    exact .inl (congrArg state hkept)
  obtain ⟨hintegration, rfl⟩ := setting_eq_ok.1 hsetting
  rcases run_bind_eq_error.1 hrest with hfail | ⟨dt, _, hlook, hrest⟩
  · obtain ⟨-, rfl⟩ := run_ofExcept_eq_error.1 hfail
    exact .inl rfl
  obtain ⟨hdt, rfl⟩ := run_ofExcept_eq_ok.1 hlook
  rcases run_bind_eq_error.1 hrest with hfail | ⟨_, v, -, hrest⟩
  · obtain ⟨e, hstep, rfl⟩ := evolve_eq_error.1 hfail
    rcases Evolution.takeStep_eq_error hstep with hstate | ⟨hexplicit, size, rate, hsize, hunrecovered⟩
    · exact .inl hstate
    · obtain ⟨mem, hrate, -⟩ := hunrecovered.moved
      rw [if_neg hexplicit] at hdt
      exact .inr ⟨c, integration, dt, size, rate, e, hcourse, hintegration, hexplicit, hdt, hsize, hunrecovered, hrate.phi,
        hunrecovered.state⟩
  -- the count of Newton's iterations is noted after the step and cannot fail
  · split at hrest
    · rw [run_get_bind] at hrest
      exact absurd hrest run_modify_ne_error
    · exact absurd hrest run_pure_ne_error

end Simulation

/-! ### A step without an end -/

/-- A flux that vanishes on the walls and is not zero decays at a rate that is not zero. -/
theorem Model.flux_rate_ne_zeros {m : Mesh ℝ} {viscosity resistivity : ℝ} {model : Model ℝ m.nodes}
    {x k : State ℝ m.nodes} {j : Vec ℝ m.nodes} (h : m.Proper)
    (hops : model.toOperators = .ofMesh m (.boundary m) viscosity resistivity) (hresistivity : resistivity ≠ 0)
    (hwalls : (Essential.boundary m).ZeroOn x.psi.values) (hpsi : x.psi ≠ Vec.zeros m.nodes)
    (hk : model.IsRate none x j k) : k.psi ≠ Vec.zeros m.nodes := by
  intro hzero
  have hload := congrArg Vec.values hk.psi
  rw [hzero, Sparse.values_mulVec, Vec.values_zeros, Matrix.mulVec_zero, Vec.values_zeroOn,
    Model.values_fluxLoad h hops, forcingValues_none, sub_zero] at hload
  rw [hops] at hload
  have hrow := hwalls.dotProduct_congr (Essential.inner_eq_zero_iff.1 hload.symm)
  -- the flow brings no energy, so that the resistive part is all there is
  have hskew := Form.bracket_skew h x.phi
    (fun i hi => hwalls i ((Essential.boundary_isBoundary m i).2 hi)) x.psi.values
  have hbracket : x.psi.values ⬝ᵥ (Form.bracket m x.phi).toMatrix *ᵥ x.psi.values = 0 := by linarith
  have hresistive : resistivity * (x.psi.values ⬝ᵥ (Form.diffusion m 1).toMatrix *ᵥ x.psi.values) = 0 := by
    have hsum : x.psi.values ⬝ᵥ (-((Form.bracket m x.phi).toMatrix *ᵥ x.psi.values) -
        resistivity • (Form.diffusion m 1).toMatrix *ᵥ x.psi.values) = x.psi.values ⬝ᵥ 0 := hrow
    rw [dotProduct_sub, dotProduct_neg, dotProduct_smul, hbracket, dotProduct_zero, smul_eq_mul] at hsum
    linarith
  have henergy := (mul_eq_zero.1 hresistive).resolve_left hresistivity
  refine hpsi (Vec.values_injective ?_)
  rw [Vec.values_zeros]
  exact Form.stiffness_definite h (Essential.boundary_nonempty m) _ hwalls henergy

/-- Solves that never converge. -/
def Krylov.refusing {n : ℕ} (name : String) : Krylov.LinearSolve ℝ n := fun _ _ => throw (.notConverged name 1 (-1))

namespace Simulation

/-- A vortex of flux in the unit square, on its way by Euler's method, with solves of the stiffness matrix that never
converge. -/
noncomputable def stuck : Simulation Mesh.unitSquare where
  model := { Model.square with stiffnessSolve := Krylov.refusing "K_solver" }
  sections := { sheet with properties := .ofNames [("viscosity", .int 1), ("resistivity", .int 1)] }
  evolution := ⟨⟨Vec.zeros _, Model.vortex, Vec.zeros _⟩, .fresh Model.square⟩
  progress := some ⟨0, 0, some ⟨.int 1, 0, #[]⟩⟩
  stopping := false
  outdir := none
  workspace := morning

theorem vortex_ne_zeros : Model.vortex ≠ Vec.zeros _ := by
  intro h
  have hmiddle := congrFun (congrArg Vec.values h) (Mesh.unitSquare.node 1 1)
  have hinside : ¬ Mesh.unitSquare.OnBoundary (Mesh.unitSquare.node 1 1) := by decide
  unfold Model.vortex at hmiddle
  rw [Vec.values_ofFn, Vec.values_zeros, if_neg hinside] at hmiddle
  exact one_ne_zero hmiddle

theorem potential_stuck {mem : Memory ℝ Mesh.unitSquare.nodes} (hsolvable : mem.solvable = true)
    (x : State ℝ Mesh.unitSquare.nodes) :
    (stuck.model.potential x).run mem = .error (.notConverged "K_solver" 1 (-1)) mem := by
  unfold Model.potential
  have hmultigrid : stuck.model.multigridSolve = none := rfl
  rw [run_get_bind]
  simp only [hmultigrid, if_pos hsolvable]
  rfl

/-- The step fails in the recovery of the stream function. -/
theorem exists_update_stuck : ∃ t, update.run stuck = .error (.notConverged "K_solver" 1 (-1)) t ∧ t.state ≠ stuck.state := by
  have hexact : Krylov.Exact stuck.model.massSystem stuck.model.massSolve := Model.square_exactSolves.mass
  have hsolvable : stuck.evolution.memory.solvable = true := rfl
  obtain ⟨k, mem, hk⟩ := Model.exists_rate hexact hsolvable stuck.state
  obtain ⟨-, hrate, -, -, hsolvable', -⟩ := Model.rate_ok hexact.sound rfl hk
  let moved : Evolution ℝ Mesh.unitSquare.nodes := ⟨stuck.state.advance (Number.int 1).toScalar k, mem⟩
  have hrecover : (Evolution.recoverPotential stuck.model).run moved = .error (.notConverged "K_solver" 1 (-1)) moved := by
    unfold Evolution.recoverPotential
    rw [run_get_bind]
    exact run_bind_eq_error.2
      (.inl (Evolution.evaluate_eq_error.2 ⟨mem, potential_stuck (hsolvable'.trans hsolvable) _, rfl⟩))
  have hstep : (Evolution.takeStep stuck.model .euler (.int 1)).run stuck.evolution =
      .error (.notConverged "K_solver" 1 (-1)) moved := by
    unfold Evolution.takeStep
    rw [run_get_bind]
    refine run_bind_eq_error.2 (.inr ⟨k, _, Evolution.evaluate_eq_ok.2 ⟨mem, hk, rfl⟩, ?_⟩)
    refine run_bind_eq_error.2 (.inr ⟨_, _, Evolution.ofExcept_usable_eq_ok.2 ⟨rfl, rfl⟩, ?_⟩)
    exact run_bind_eq_error.2 (.inr ⟨⟨⟩, _, Evolution.advance_eq_ok.2 rfl, hrecover⟩)
  have hupdate : update.run stuck = .error (.notConverged "K_solver" 1 (-1)) { stuck with evolution := moved }.tellNewton := by
    have hintegration : stuck.schedule.integration = .ok .euler := rfl
    refine run_bind_eq_error.2 (.inr ⟨_, stuck, rfl, ?_⟩)
    refine run_bind_eq_error.2 (.inr ⟨.euler, stuck, setting_eq_ok.2 ⟨hintegration, rfl⟩, ?_⟩)
    refine run_bind_eq_error.2 (.inr ⟨.int 1, stuck, rfl, ?_⟩)
    exact run_bind_eq_error.2 (.inl (evolve_eq_error.2 ⟨moved, hstep, rfl⟩))
  refine ⟨_, hupdate, fun hstate => ?_⟩
  have hpsi : (stuck.state.psi + Vec.scale (Number.int 1).toScalar k.psi : Vec ℝ _) = stuck.state.psi :=
    congrArg State.psi hstate
  have hone : (Number.int 1).toScalar = (1 : ℝ) := (Scalar.ofInt_real 1).trans Int.cast_one
  have hwalls : (Essential.boundary Mesh.unitSquare).ZeroOn stuck.state.psi.values := Model.vortex_zeroOn
  refine Model.flux_rate_ne_zeros Mesh.unitSquare_proper rfl one_ne_zero hwalls vortex_ne_zeros hrate
    (Vec.values_injective ?_)
  have hvalues := congrArg Vec.values hpsi
  rw [hone, Vec.values_add, Vec.values_scale, one_smul, add_eq_left] at hvalues
  rw [hvalues, Vec.values_zeros]

/-- The step fails, and what it leaves is the start without its flux and vorticity: they are those of the end. -/
theorem update_eq_error_stuck : ∃ t, update.run stuck = .error (.notConverged "K_solver" 1 (-1)) t ∧
    ∃ rate after, (stuck.model.rate stuck.state).run stuck.evolution.memory = .ok rate after ∧
      rate.phi = Vec.zeros _ ∧ t.state = stuck.state.advance 1 rate := by
  obtain ⟨t, hupdate, hmoved⟩ := exists_update_stuck
  obtain hstate | ⟨c, integration, dt, size, rate, _, hcourse, hintegration, -, hdt, hsize, hunrecovered, hphi, hstate⟩ :=
    update_eq_error hupdate
  · exact absurd hstate hmoved
  have hstuck : course.run stuck = .ok ⟨.int 1, 0, #[]⟩ stuck := rfl
  rw [hstuck] at hcourse
  cases hcourse
  cases hdt
  cases hintegration
  rw [Number.usable_real] at hsize
  have hone : size = 1 := (Except.ok.inj hsize).symm.trans ((Scalar.ofInt_real 1).trans Int.cast_one)
  obtain ⟨mem, hrate, -⟩ := hunrecovered.moved
  cases hrate with
  | euler rate_of => exact ⟨t, hupdate, rate, mem, rate_of, hphi, hone ▸ hstate⟩

/-- A solve that does not converge may leave neither the start of a step nor its end. -/
theorem not_forall_state_of_notConverged :
    ¬ ∀ (m : Mesh ℝ) (s t : Simulation m) (solver : String) (iterations : ℕ) (reason : ℤ),
      update.run s = .error (.notConverged solver iterations reason) t → t.state = s.state := by
  intro h
  obtain ⟨t, hupdate, hmoved⟩ := exists_update_stuck
  exact hmoved (h _ _ _ _ _ _ hupdate)

end Simulation

end Magnetofluid
