import Mathlib
import Magnetofluid.Model.Session
import Magnetofluid.Proofs.Exact.Text
import Magnetofluid.Proofs.Model.Agreement
import Magnetofluid.Proofs.Model.Direct

/-!
# Set-up of a session

A session holds forcing and boundary current twice, for the explicit rate and for the step.  The calls that set them
change both or fail, so that after any number of calls the two evaluations still speak of one system of equations.

* `Session.SetUp`: the sessions that calls of the set-up lead to, also calls that fail.
* `Session.SetUp.evaluations_agree`: what explicit rate, residual and stream function have to do with each other in
  such a session.
-/

namespace Magnetofluid.Session

open Matrix

variable {m : Mesh ℝ}

/-- The sessions that calls of the set-up lead to from the start, in any order. -/
inductive SetUp (named : NamedModel ℝ m.nodes) : Session m → Prop
  | start : SetUp named (start named)
  | setField {s : Session m} (f : Option (Coefficient ℝ)) : SetUp named s → SetUp named (stateAfter (setField f) s)
  | setCurrent {s : Session m} (f : Coefficient ℝ) : SetUp named s → SetUp named (stateAfter (setCurrent f) s)
  | setBoundaryCurrent {s : Session m} (v : Value ℝ) :
    SetUp named s → SetUp named (stateAfter (setBoundaryCurrent v) s)

variable {named : NamedModel ℝ m.nodes} {s t : Session m}

/-! ### Evaluations in a session -/

theorem evaluate_eq_ok {α : Type} {act : Model ℝ m.nodes → Action ℝ m.nodes α} {a : α} :
    (evaluate act).run s = .ok a t ↔ ∃ memory, (act s.model).run s.memory = .ok a memory ∧ t = { s with memory } := by
  show evaluate act s = _ ↔ _
  unfold evaluate
  cases (act s.model).run s.memory with
  | ok b memory => simp [eq_comm]
  | error e memory => simp

theorem evaluate_eq_error {α : Type} {act : Model ℝ m.nodes → Action ℝ m.nodes α} {e : Failure ℝ} :
    (evaluate act).run s = .error e t ↔
      ∃ memory, (act s.model).run s.memory = .error e memory ∧ t = { s with memory } := by
  show evaluate act s = _ ↔ _
  unfold evaluate
  cases (act s.model).run s.memory with
  | ok b memory => simp
  | error f memory => simp [eq_comm]

/-! ### What the set-up keeps -/

/-- The explicit rate and the step of a session have one forcing and one current, and the solves are there. -/
structure Fit (named : NamedModel ℝ m.nodes) (s : Session m) : Prop where
  named_eq : s.named = named
  forcing : s.memory.step.forcing = s.memory.forcing
  boundary : s.memory.step.boundary = .model
  solvable : s.memory.solvable = true
  multigrid : s.memory.multigrid = named.model.multigridSolve.isSome

theorem fit_start : Fit named (start named) := ⟨rfl, rfl, rfl, rfl, rfl⟩

theorem keeps_setField (f : Option (Coefficient ℝ)) : Keeps (Fit named) (setField f) := by
  have hset : ∀ forcing, Keeps (Fit named) (evaluate fun _ => Model.setForcing forcing) :=
    fun forcing s hs => ⟨hs.named_eq, rfl, hs.boundary, hs.solvable, hs.multigrid⟩
  unfold setField
  cases f with
  | none => exact .bind (.pure _) hset
  | some f =>
    cases f with
    | other => exact .bind (.throw _) hset
    | function f => exact .bind (.ofExcept _) fun _ => .bind (.pure _) hset
    | table t => exact .bind (.ofExcept _) fun _ => .bind (.pure _) hset

theorem keeps_setCurrent (f : Coefficient ℝ) : Keeps (Fit named) (setCurrent f) := by
  have hset : ∀ j, Keeps (Fit named) (evaluate fun _ => Model.setCurrent j) :=
    fun j s hs => ⟨hs.named_eq, hs.forcing, hs.boundary, hs.solvable, hs.multigrid⟩
  unfold setCurrent
  cases f with
  | other => exact .bind (.throw _) fun _ => .bind (.ofExcept _) hset
  | function f => exact .bind (.ofExcept _) hset
  | table t => exact .bind (.ofExcept _) hset

theorem keeps_setBoundaryCurrent (v : Value ℝ) : Keeps (Fit named) (setBoundaryCurrent v) := by
  have hset : ∀ j, Keeps (Fit named) (evaluate fun model => model.setBoundaryCurrent j) :=
    fun j s hs => ⟨hs.named_eq, hs.forcing, hs.boundary, hs.solvable, hs.multigrid⟩
  unfold setBoundaryCurrent
  exact .bind .get fun _ => .bind (.ofExcept _) hset

theorem SetUp.fit (hs : SetUp named s) : Fit named s := by
  induction hs with
  | start => exact fit_start
  | setField f _ ih => exact keeps_setField f _ ih
  | setCurrent f _ ih => exact keeps_setCurrent f _ ih
  | setBoundaryCurrent v _ ih => exact keeps_setBoundaryCurrent v _ ih

theorem Fit.prescribed (hs : Fit named s) : s.memory.prescribed = some s.memory.current := by
  unfold Memory.prescribed
  rw [hs.boundary]

/-! ### Agreement of the evaluations -/

/-- **Explicit rate and implicit step agree.**  After any set-up, for the residual `y` of the step of size `dt` from
`start`, the explicit rate `r` and the stream function `phi` of the vorticity, all at one state `k`: `y` vanishes on the
essential nodes, and off them it is the mass matrix times the rate of the step less `r`, and the stiffness matrix times
the stream function less `phi`.  So `y` is zero just if `k` is, off the essential nodes, the end of a backward-Euler
step of the explicit rate.  A state without rates is its own step, which Newton's method finds without an iteration. -/
theorem SetUp.evaluations_agree (h : m.Proper) {ess : Essential m.nodes} (hess : ∃ k, k ∈ ess)
    {viscosity resistivity : ℝ} (hops : named.model.toOperators = .ofMesh m ess viscosity resistivity)
    (hsolves : named.model.ExactSolves) (hs : SetUp named s) {dt : Number ℝ} (hdt : 0 < dt.toScalar)
    (start k : State ℝ m.nodes) :
    ∃ y r phi s₁ s₂ s₃, (evaluate fun model => model.residualOf dt start k).run s = .ok y s₁ ∧
      (evaluate fun model => model.rate k).run s = .ok r s₂ ∧
      (evaluate fun model => model.potential k).run s = .ok phi s₃ ∧
      (∀ i ∈ ess, y.phi.values i = 0 ∧ y.psi.values i = 0 ∧ y.w.values i = 0) ∧
      (∀ i ∉ ess,
        y.psi.values i = (named.model.massSystem.toMatrix *ᵥ fun l =>
          (k.psi.values l - start.psi.values l) / dt.toScalar - r.psi.values l) i ∧
        y.w.values i = (named.model.massSystem.toMatrix *ᵥ fun l =>
          (k.w.values l - start.w.values l) / dt.toScalar - r.w.values l) i ∧
        y.phi.values i = (named.model.stiffnessSystem.toMatrix *ᵥ fun l => k.phi.values l - phi.values l) i) ∧
      (y = State.zeros m.nodes ↔ ∀ i ∉ ess,
        (k.psi.values i - start.psi.values i) / dt.toScalar = r.psi.values i ∧
        (k.w.values i - start.w.values i) / dt.toScalar = r.w.values i ∧ k.phi.values i = phi.values i) ∧
      ∀ rtol atol verbose, named.model.newton.rtol = .ok rtol → named.model.newton.atol = .ok atol →
        named.model.newton.verbose = .ok verbose → r = State.zeros m.nodes → named.model.Constrained k →
        ∃ s₄, (evaluate fun model => model.implicitRate dt k).run s = .ok (State.zeros m.nodes) s₄ ∧
          s₄.memory.newton.converged = true ∧ s₄.memory.newton.iterations = 0 := by
  have hfit := hs.fit
  obtain rfl := hfit.named_eq
  have hmassSystem : s.named.model.massSystem = (Form.mass m).eliminate ess := by rw [hops]; rfl
  have hstiffnessSystem : s.named.model.stiffnessSystem = (Form.diffusion m 1).eliminate ess := by rw [hops]; rfl
  obtain ⟨y, mem₁, hy⟩ := Model.exists_residualOf hsolves.mass hfit.solvable hfit.prescribed hdt start k
  obtain ⟨r, mem₂, hr⟩ := Model.exists_rate hsolves.mass hfit.solvable k
  obtain ⟨phi, hphi⟩ := Model.exists_potential hsolves.stiffness hfit.solvable hfit.multigrid k
  obtain ⟨hphiBlock, hpsiBlock, hwBlock⟩ :=
    Model.residualOf_blocks hops h hsolves hfit.forcing hfit.prescribed hy hr hphi
  refine ⟨y, r, phi, _, _, _, evaluate_eq_ok.2 ⟨_, hy, rfl⟩, evaluate_eq_ok.2 ⟨_, hr, rfl⟩,
    evaluate_eq_ok.2 ⟨_, hphi, rfl⟩, fun i hi => ?_, fun i hi => ?_, ?_, ?_⟩
  · rw [hphiBlock, hpsiBlock, hwBlock, Essential.inner_of_mem hi, Essential.inner_of_mem hi, Essential.inner_of_mem hi]
    exact ⟨rfl, rfl, rfl⟩
  · rw [hphiBlock, hpsiBlock, hwBlock, Essential.inner_of_not_mem hi, Essential.inner_of_not_mem hi,
      Essential.inner_of_not_mem hi]
    exact ⟨rfl, rfl, rfl⟩
  · rw [State.eq_zeros_iff, hphiBlock, hpsiBlock, hwBlock, hmassSystem, hstiffnessSystem,
      (Form.stiffness_definite h hess).eliminate_inner_eq_zero_iff,
      (Form.mass_definite h ess).eliminate_inner_eq_zero_iff, (Form.mass_definite h ess).eliminate_inner_eq_zero_iff]
    simp only [sub_eq_zero]
    constructor
    · rintro ⟨hphi, hpsi, hw⟩ i hi
      exact ⟨hpsi i hi, hw i hi, hphi i hi⟩
    · intro hall
      exact ⟨fun i hi => (hall i hi).2.2, fun i hi => (hall i hi).1, fun i hi => (hall i hi).2.1⟩
  · rintro rtol atol verbose hrtol hatol hverbose rfl hconstraint
    obtain ⟨after, hafter, hconverged, hiterations⟩ := Model.implicitRate_of_stationary hops h hsolves.mass
      hfit.solvable hfit.forcing hfit.boundary hrtol hatol hverbose hdt hr hconstraint
    exact ⟨_, evaluate_eq_ok.2 ⟨_, hafter, rfl⟩, hconverged, hiterations⟩

noncomputable def square : NamedModel ℝ Mesh.unitSquare.nodes where
  model := .square
  essential := (Essential.boundary Mesh.unitSquare).toList.map fun i => ((i : ℕ) : ℤ)
  solver := []
  newton := []

theorem evaluations_agree_square : ∃ s y r phi s₁ s₂ s₃, SetUp square s ∧
    (evaluate fun model => model.residualOf (.int 1) (.zeros _) ⟨Model.ramp, Model.ramp, Model.vortex⟩).run s =
      .ok y s₁ ∧
    (evaluate fun model => model.rate ⟨Model.ramp, Model.ramp, Model.vortex⟩).run s = .ok r s₂ ∧
    (evaluate fun model => model.potential ⟨Model.ramp, Model.ramp, Model.vortex⟩).run s = .ok phi s₃ ∧
    ∀ i ∈ Essential.boundary Mesh.unitSquare, y.phi.values i = 0 ∧ y.psi.values i = 0 ∧ y.w.values i = 0 := by
  -- a forcing, a current that is refused, and a value on the boundary
  have hs : SetUp square _ := .setBoundaryCurrent (.int 2)
    (.setCurrent .other (.setField (some (.function fun x y => x * y)) .start))
  have hdt : (0 : ℝ) < (Number.int 1).toScalar := by simp [Number.toScalar]
  obtain ⟨y, r, phi, s₁, s₂, s₃, hy, hr, hphi, hzero, -⟩ := hs.evaluations_agree Mesh.unitSquare_proper
    (Essential.boundary_nonempty _) rfl Model.square_exactSolves hdt (.zeros _) ⟨Model.ramp, Model.ramp, Model.vortex⟩
  exact ⟨_, y, r, phi, s₁, s₂, s₃, hs, hy, hr, hphi, hzero⟩

end Magnetofluid.Session
